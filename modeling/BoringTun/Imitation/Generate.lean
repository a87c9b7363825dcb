import BoringTun.Amnezia.Fillers
import BoringTun.Crypto
import BoringTun.Imitation.Detect
import BoringTun.Lib.Draw

/-!
The datagrams a client of the imitated protocol would send before the handshake
(`noise/imitation/dns.rs`, `sip.rs` and `stun.rs`): the queries of a resolver, a SIP call
that is given up, the two checks of an ICE agent.

Texts are bytes; every host name and token is written in full, so no datagram is empty
(`Dns.generate_ne_nil`, `Sip.generate_ne_nil`, `Stun.generate_ne_nil`).
-/

namespace BoringTun

open Draw

namespace Imitation

def TOKEN_ALPHABET : Bytes :=
  ascii "ABCDEFGHIJKLMNOPQRSTUVWXYZabcdefghijklmnopqrstuvwxyz0123456789"

/-- A token of `minLen..=maxLen` characters. -/
def randomToken (minLen maxLen : Nat) : Draw Bytes := do
  let word ← word
  times (minLen + word % (maxLen - minLen + 1)) (oneOf TOKEN_ALPHABET 0)

/-- A number as `{}` prints it. -/
def decimal (n : Nat) : Bytes := ascii (toString n)

/-- `{:08x}` of a 32-bit word. -/
def hex32 (n : Nat) : Bytes := hexBytes 8 n

namespace Dns

def QTYPE_A : Nat := 0x0001
def QTYPE_AAAA : Nat := 0x001c
def QTYPE_HTTPS : Nat := 0x0041
def QCLASS_IN : Nat := 0x0001

/-- A label with its length before it, cut to 63 bytes. -/
def writeLabel (label : Bytes) : Bytes :=
  let len := min label.length 63
  UInt8.ofNat len :: label.take len

def buildQuery (domain : Bytes) (qtype : Nat) : Draw Bytes := do
  let transactionId ← word
  return beBytes 2 transactionId ++ [0x01, 0x00] ++ [0x00, 0x01] ++ [0x00, 0x00] ++
    [0x00, 0x00] ++ [0x00, 0x00] ++ (domain.splitOn 46).flatMap writeLabel ++ [0x00] ++
    beBytes 2 qtype ++ beBytes 2 QCLASS_IN

/-- The A, AAAA and HTTPS queries for a name. -/
def generate (domain : Bytes) : Draw (List Bytes) :=
  [QTYPE_A, QTYPE_AAAA, QTYPE_HTTPS].mapM (buildQuery domain)

theorem generate_ne_nil (domain : Bytes) :
    Yields (generate domain) fun datagrams => ∀ d ∈ datagrams, d ≠ [] := by
  refine .mapM _ fun qtype _ => ?_
  exact .last fun transactionId => .pure (by simp)

theorem generate_length (domain : Bytes) :
    Yields (generate domain) fun datagrams => 0 < datagrams.length ∧ datagrams.length ≤ 3 := by
  intro rng
  have hlength : (generate domain rng).1.length = 3 := Yields.mapM_length _ _ rng
  omega

end Dns

namespace Sip

structure SipProfile where
  userAgent : Bytes
  allow : Bytes
  supported : Bytes

def SIP_PROFILES : List SipProfile :=
  [("PJSUA v2.13 Linux-6.1/x86_64",
      "INVITE, ACK, CANCEL, BYE, OPTIONS, INFO, PRACK, UPDATE, REFER, NOTIFY, MESSAGE, SUBSCRIBE",
      "100rel, timer, replaces, norefersub"),
    ("Linphone/5.2.5 (belle-sip/5.2.0)",
      "INVITE, ACK, BYE, CANCEL, OPTIONS, INFO, UPDATE, REFER, MESSAGE",
      "replaces, outbound, gruu, path, 100rel, timer"),
    ("Twinkle/1.10.2",
      "INVITE, ACK, CANCEL, OPTIONS, BYE, REFER, NOTIFY, MESSAGE, INFO",
      "replaces, timer, 100rel"),
    ("Zoiper rv2.10.16.6",
      "INVITE, ACK, CANCEL, BYE, OPTIONS, INFO, PRACK, UPDATE, REFER, NOTIFY",
      "timer, 100rel, replaces, norefersub"),
    ("MicroSIP/3.21.5",
      "ACK, BYE, CANCEL, INFO, INVITE, MESSAGE, NOTIFY, OPTIONS, REFER, SUBSCRIBE",
      "replaces, 100rel, timer"),
    ("Bria 5.6.4",
      "INVITE, ACK, CANCEL, BYE, OPTIONS, INFO, REFER, NOTIFY, MESSAGE",
      "replaces, timer, 100rel")].map
    fun (userAgent, allow, supported) => ⟨ascii userAgent, ascii allow, ascii supported⟩

def NAMES : List Bytes :=
  ["alice", "bob", "carol", "dave", "eve", "frank", "grace", "heidi", "ivan", "judy", "trent",
    "victor", "walter", "olivia", "noah", "emma", "sofia", "lucas", "mason", "ava", "support",
    "sales", "billing", "admin", "noc"].map ascii

def TLDS : List Bytes := ["net", "com", "org", "local"].map ascii

def octet : Draw Bytes := do
  let word ← word
  return decimal (2 + word % 253)

/-- An address literal in one of the three private ranges. -/
def rfc1918Literal : Draw Bytes := do
  let range ← word
  match range % 3 with
  | 0 =>
    let a ← octet
    let b ← octet
    let c ← octet
    return ascii "10." ++ a ++ ascii "." ++ b ++ ascii "." ++ c
  | 1 =>
    let second ← word
    let a ← octet
    let b ← octet
    return ascii "172." ++ decimal (16 + second % 16) ++ ascii "." ++ a ++ ascii "." ++ b
  | _ =>
    let a ← octet
    let b ← octet
    return ascii "192.168." ++ a ++ ascii "." ++ b

/-- A name, a name with digits, an extension number, or a hexadecimal token. -/
def randomSipUsername : Draw Bytes := do
  let form ← word
  match form % 4 with
  | 0 => oneOf NAMES []
  | 1 =>
    let name ← oneOf NAMES []
    let digits ← word
    return name ++ decimal (digits % 1000)
  | 2 =>
    let extension ← word
    return decimal (100 + extension % 999900)
  | _ =>
    let token ← word
    return hex32 token

/-- The first character in upper case, if it is a letter. -/
def displayName : Bytes → Bytes
  | [] => []
  | first :: rest => toAsciiUpper first :: rest

/-- What the two requests of a call share. -/
structure Call where
  branchId : Bytes
  fromTag : Bytes
  callId : Bytes
  cseqNum : Nat
  viaHost : Bytes
  profile : SipProfile
  caller : Bytes
  callee : Bytes

def drawCallIdHost (callIdVal : Nat) : Draw Bytes := do
  let form ← word
  match form % 3 with
  | 0 => rfc1918Literal
  | 1 =>
    let tld ← oneOf TLDS []
    return hex32 (callIdVal ^^^ 0xa5a5a5a5) ++ ascii "." ++ tld
  | _ => return hex32 (callIdVal ^^^ 0xc3c3c3c3)

def drawCall : Draw Call := do
  let branch₁ ← word
  let branch₂ ← word
  let tag₁ ← word
  let tag₂ ← word
  let callIdVal ← word
  let callIdVal2 ← word
  let cseq ← word
  let callIdHost ← drawCallIdHost callIdVal
  let viaAddress ← rfc1918Literal
  let viaPort ← word
  let profile ← oneOf SIP_PROFILES ⟨[], [], []⟩
  let caller ← randomSipUsername
  let callee ← randomSipUsername
  -- one more draw, which may still be the caller's name
  let callee ← if callee = caller then randomSipUsername else pure callee
  return {
    branchId := ascii "z9hG4bK" ++ hex32 branch₁ ++ hex32 branch₂
    fromTag := hex32 tag₁ ++ hex32 tag₂
    callId := hex32 callIdVal ++ hex32 callIdVal2 ++ ascii "@" ++ callIdHost
    cseqNum := 10000 + cseq % 90000
    viaHost := viaAddress ++ ascii ":" ++ decimal (49152 + viaPort % 16384)
    profile, caller, callee }

namespace Call

variable (call : Call) (domain : Bytes)

def requestLine (method : Bytes) : Bytes :=
  method ++ ascii " sip:" ++ call.callee ++ ascii "@" ++ domain ++ ascii " SIP/2.0" ++ crlf

def viaLine : Bytes :=
  ascii "Via: SIP/2.0/UDP " ++ call.viaHost ++ ascii ";branch=" ++ call.branchId ++
    ascii ";rport" ++ crlf

def maxForwardsLine : Bytes := ascii "Max-Forwards: 70" ++ crlf

def fromLine : Bytes :=
  ascii "From: " ++ displayName call.caller ++ ascii " <sip:" ++ call.caller ++ ascii "@" ++
    domain ++ ascii ">;tag=" ++ call.fromTag ++ crlf

def toLine : Bytes :=
  ascii "To: " ++ displayName call.callee ++ ascii " <sip:" ++ call.callee ++ ascii "@" ++
    domain ++ ascii ">" ++ crlf

def callIdLine : Bytes := ascii "Call-ID: " ++ call.callId ++ crlf

def cseqLine (method : Bytes) : Bytes :=
  ascii "CSeq: " ++ decimal call.cseqNum ++ ascii " " ++ method ++ crlf

def contentLengthLine : Bytes := ascii "Content-Length: 0" ++ crlf ++ crlf

def invite : Bytes :=
  [call.requestLine domain (ascii "INVITE"), call.viaLine, maxForwardsLine, call.fromLine domain,
    call.toLine domain, call.callIdLine, call.cseqLine (ascii "INVITE"),
    ascii "Contact: <sip:" ++ call.caller ++ ascii "@" ++ call.viaHost ++ ascii ">" ++ crlf,
    ascii "User-Agent: " ++ call.profile.userAgent ++ crlf,
    ascii "Allow: " ++ call.profile.allow ++ crlf,
    ascii "Supported: " ++ call.profile.supported ++ crlf, contentLengthLine].flatten

/-- To before From, unlike the request it cancels. -/
def cancel : Bytes :=
  [call.requestLine domain (ascii "CANCEL"), call.viaLine, maxForwardsLine, call.toLine domain,
    call.fromLine domain, call.callIdLine, call.cseqLine (ascii "CANCEL"),
    contentLengthLine].flatten

theorem requestLine_ne_nil (method : Bytes) : call.requestLine domain method ≠ [] := by
  simp [requestLine, crlf]

theorem invite_ne_nil : call.invite domain ≠ [] :=
  List.append_ne_nil_of_left_ne_nil (call.requestLine_ne_nil domain _) _

theorem cancel_ne_nil : call.cancel domain ≠ [] :=
  List.append_ne_nil_of_left_ne_nil (call.requestLine_ne_nil domain _) _

end Call

/-- The INVITE and the CANCEL of a call to a host. -/
def generate (domain : Bytes) : Draw (List Bytes) := do
  let call ← drawCall
  return [call.invite domain, call.cancel domain]

theorem generate_ne_nil (domain : Bytes) :
    Yields (generate domain) fun datagrams => ∀ d ∈ datagrams, d ≠ [] := by
  refine .last fun call => .pure (List.forall_mem_cons.mpr ⟨?_, List.forall_mem_singleton.mpr ?_⟩)
  · exact call.invite_ne_nil domain
  · exact call.cancel_ne_nil domain

theorem generate_length (domain : Bytes) :
    Yields (generate domain) fun datagrams => 0 < datagrams.length ∧ datagrams.length ≤ 3 :=
  .last fun call => .pure ⟨Nat.succ_pos _, by simp⟩

end Sip

namespace Stun

def SOFTWARE_POOL : List Bytes :=
  ["libnice 0.1.21", "PJSIP 2.13.0", "Chromium", "Linphone/5.2", "Mozilla"].map ascii

/-- The software a host announces for as long as the process lives. -/
def hostSoftware (P : Primitives) : Bytes :=
  SOFTWARE_POOL.getD (P.hostSoftwareWord.toNat % SOFTWARE_POOL.length) []

structure BindingRequest where
  software : Bytes
  username : Bytes
  priority : Nat
  iceControlling : Nat
  transId : Bytes
  icePwd : Bytes
  withUseCandidate : Bool

def padded (len : Nat) : Nat := (len + 3) / 4 * 4

/-- One attribute: type, length of the value, and the value padded with zeros to a word. -/
def tlv (attrType : Nat) (value : Bytes) : Bytes :=
  beBytes 2 attrType ++ beBytes 2 value.length ++ value ++
    List.replicate (padded value.length - value.length) 0

/-- CRC-32 as Ethernet has it, bit by bit. -/
def crc32Ieee (data : Bytes) : UInt32 :=
  let round (crc : UInt32) : UInt32 := (crc >>> 1) ^^^ (0xedb88320 &&& (0 - (crc &&& 1)))
  ~~~(data.foldl (fun crc byte => Nat.repeat round 8 (crc ^^^ byte.toUInt32)) 0xffffffff)

/-- The header of a request that declares `len` bytes of attributes. -/
def header (transId : Bytes) (len : Nat) : Bytes :=
  beBytes 2 BINDING_REQUEST ++ beBytes 2 len ++ MAGIC_COOKIE ++ transId

namespace BindingRequest

variable (p : BindingRequest)

def baseAttrs : Bytes :=
  tlv 0x8022 p.software ++ tlv 0x0006 p.username ++ tlv 0x0024 (beBytes 4 p.priority) ++
    tlv 0x802a (beBytes 8 p.iceControlling) ++ if p.withUseCandidate then tlv 0x0025 [] else []

/-- The integrity covers the message with a length that ends behind it, the fingerprint
one that ends behind itself. -/
def buildBindingRequest (P : Primitives) : Bytes :=
  let attrs := p.baseAttrs
  let integrity := P.hmacSha1 p.icePwd (header p.transId (attrs.length + 24) ++ attrs)
  let attrs := attrs ++ tlv 0x0008 integrity
  let msg := header p.transId (attrs.length + 8) ++ attrs
  msg ++ tlv 0x8028 (beBytes 4 (crc32Ieee msg ^^^ 0x5354554e).toNat)

end BindingRequest

/-- A binding request, and a second one with a fresh transaction that nominates. -/
def generate (P : Primitives) : Draw (List Bytes) := do
  let software := hostSoftware P
  let ufrag ← randomToken 4 8
  let remote ← randomToken 4 8
  let username := ufrag ++ ascii ":" ++ remote
  let icePwd ← randomToken 22 22
  let priority ← word
  let high ← word
  let low ← word
  let iceControlling := high * 2 ^ 32 + low
  let transId ← bytes 12
  let first : BindingRequest :=
    { software, username, priority, iceControlling, transId, icePwd, withUseCandidate := false }
  let transId ← bytes 12
  let second := { first with transId, withUseCandidate := true }
  return [first.buildBindingRequest P, second.buildBindingRequest P]

theorem header_ne_nil (transId : Bytes) (len : Nat) : header transId len ≠ [] := by
  simp [header, MAGIC_COOKIE]

theorem BindingRequest.buildBindingRequest_ne_nil (p : BindingRequest) (P : Primitives) :
    p.buildBindingRequest P ≠ [] := by
  simp only [buildBindingRequest, ne_eq, List.append_eq_nil_iff, header_ne_nil, false_and,
    not_false_eq_true]

theorem generate_ne_nil (P : Primitives) :
    Yields (generate P) fun datagrams => ∀ d ∈ datagrams, d ≠ [] := by
  -- whatever was drawn, what is returned is two requests
  refine .last fun _ => .last fun _ => .last fun _ => .last fun _ => .last fun _ =>
    .last fun _ => .last fun _ => .last fun _ => .pure ?_
  simp [BindingRequest.buildBindingRequest_ne_nil]

theorem generate_length (P : Primitives) :
    Yields (generate P) fun datagrams => 0 < datagrams.length ∧ datagrams.length ≤ 3 :=
  .last fun _ => .last fun _ => .last fun _ => .last fun _ => .last fun _ =>
    .last fun _ => .last fun _ => .last fun _ => .pure ⟨Nat.succ_pos _, by simp⟩

end Stun

end Imitation

end BoringTun

import BoringTun.Amnezia.Config
import BoringTun.Lib.Checked

/-!
What goes into a prefix or a junk datagram (`fill_*` in `noise/amnezia.rs`).

The fillers write into a slice by index, and every write is modelled with its bounds
check.

* `fillDns_yields`: the query the DNS filler leaves, and the records that pad it;
* `fillProtocolLike_yields`: no filler panics, for any protocol, host, slice and generator;
  what it leaves does not depend on what the slice held, up to the last byte of three sizes
  of a DNS prefix.
-/

namespace BoringTun

open Filler

def DNS_OPT_FIXED_LEN : Nat := 11
def DNS_OPT_MIN_WIRE_SIZE : Nat := DNS_OPT_FIXED_LEN + 4
def STUN_MAGIC_COOKIE : Bytes := [0x21, 0x12, 0xa4, 0x42]

/-- Four bytes a word, the last word cut. -/
def fillRandom : Filler Unit := fun (dst, rng) => some ((), rng.bytes dst.length)

section

variable {n : Nat} {known : Bytes} {rng : Rng}

theorem fillRandom_yields : Yields n known rng fillRandom (Whole n) := by
  intro hle
  have hbytes := Rng.length_bytes n rng
  refine ⟨(), (rng.bytes n).1, (rng.bytes n).2, hbytes, by omega, by omega, fun rest hrest => ?_⟩
  · rw [Rng.length_bytes, List.drop_eq_nil_of_le, List.append_nil, ← hrest]
    · rfl
    · rw [List.length_append] at hrest
      omega

/-- A byte a word, from `pos` up to `stop`. -/
def fillRandomBytes (pos stop : Nat) : Filler Unit := do
  let run ← randomBytes (stop - pos)
  write pos run

theorem fillRandomBytes_yields {pos stop : Nat} (hknown : pos ≤ known.length) (hpos : pos ≤ n)
    (hstop : stop ≤ n) : Yields n known rng (fillRandomBytes pos stop) fun _ known' _ =>
      known'.length = max known.length stop := by
  refine .bind (.randomBytes _) ?_
  rintro run _ rng₁ ⟨hrun, rfl⟩
  refine (Yields.write hknown (by omega)).mono fun _ known' _ hwritten => ?_
  omega

end

/-! ### QUIC and STUN -/

def fillQuicShort : Filler Unit := do
  let size ← size
  guarded (size ≠ 0) do
    let spin ← word
    let keyPhase ← word
    let pnLen ← word
    write 0 [UInt8.ofNat (0x40 + 32 * (spin / 256 % 2) + 4 * (keyPhase / 256 % 2) + pnLen % 4)]
    fillRandomBytes 1 size

def fillQuicInitial : Filler Unit := do
  fillRandom
  let size ← size
  guarded (size ≠ 0) do
    let bits ← word
    write 0 [UInt8.ofNat (0xc0 + bits % 4)]
  guarded (size ≥ 5) (write 1 [0x00, 0x00, 0x00, 0x01])
  guarded (size ≥ 6) do
    let len ← word
    write 5 [UInt8.ofNat (len % 17 + 4)]

/-- What a STUN message of `size` bytes holds after its header, in whole words. -/
def stunBody (size : Nat) : Nat := if size > 20 then (size - 20) / 4 * 4 else 0

def stunValueLen (size : Nat) : Nat :=
  if stunBody size ≥ 4 then min (stunBody size - 4) 124 else 0

def stunAttrLen (size : Nat) : Nat := if stunBody size ≥ 4 then 4 + stunValueLen size else 0

theorem stunAttrLen_le {size : Nat} (h : 4 ≤ stunAttrLen size) : 24 + stunValueLen size ≤ size := by
  have hbody : 4 ≤ stunBody size := by
    by_contra hlt
    simp [stunAttrLen, hlt] at h
  have hvalue : stunValueLen size ≤ stunBody size - 4 := by
    rw [stunValueLen, if_pos hbody]
    exact Nat.min_le_left _ _
  have hsize : stunBody size ≤ size - 20 := by
    unfold stunBody
    split <;> omega
  omega

def fillStun : Filler Unit := do
  fillRandom
  let size ← size
  guarded (size ≥ 2) (write 0 [0x00, 0x01])
  let valueLen := stunValueLen size
  let attrLen := stunAttrLen size
  guarded (size ≥ 4) (write 2 (beBytes 2 attrLen))
  guarded (size ≥ 8) (write 4 STUN_MAGIC_COOKIE)
  guarded (size > 8) (fillRandomBytes 8 (min size 20))
  guarded (attrLen ≥ 4) do
    write 20 ([0x80, 0x22] ++ beBytes 2 valueLen)
    let value ← randomBytes valueLen
    write 24 (value.map fun byte => 0x20 + byte % 0x5f)
  guarded (size ≥ 20 + attrLen) (fillRandomBytes (20 + attrLen) size)

section

variable {n : Nat} {rng : Rng}

theorem fillQuicShort_yields : Yields n [] rng fillQuicShort (Whole n) := by
  refine .bind .size ?_
  rintro _ _ rng₀ ⟨rfl, rfl⟩
  refine .guarded (fun hne => ?_) fun hzero => ?_
  · refine .bind .word ?_
    rintro spin _ rng₁ rfl
    refine .bind .word ?_
    rintro keyPhase _ rng₂ rfl
    refine .bind .word ?_
    rintro pnLen _ rng₃ rfl
    refine .bind (.append rfl (Nat.pos_of_ne_zero hne)) ?_
    rintro _ _ rng₄ rfl
    refine (fillRandomBytes_yields (Nat.le_refl 1) (Nat.pos_of_ne_zero hne) (Nat.le_refl _)).mono ?_
    intro _ known' _ hlen
    exact hlen.trans (Nat.max_eq_right (Nat.pos_of_ne_zero hne))
  · exact (not_not.mp hzero).symm

theorem fillQuicInitial_yields : Yields n [] rng fillQuicInitial (Whole n) := by
  refine .bind fillRandom_yields fun _ known₁ rng₁ h₁ => .bind .size ?_
  rintro _ _ rng₂ ⟨rfl, rfl⟩
  refine .bind (.guardedWhole h₁ fun hne => ?_) fun _ known₂ rng₃ h₂ => ?_
  · refine .bind .word ?_
    rintro bits _ rng₃ rfl
    exact .writeWhole h₁ (Nat.pos_of_ne_zero hne)
  refine .bind (.guardedWhole h₂ fun h => .writeWhole h₂ h) fun _ known₃ rng₄ h₃ => ?_
  refine .guardedWhole h₃ fun h => ?_
  refine .bind .word ?_
  rintro len _ rng₅ rfl
  exact .writeWhole h₃ h

theorem fillStun_yields : Yields n [] rng fillStun (Whole n) := by
  refine .bind fillRandom_yields fun _ known₁ rng₁ h₁ => .bind .size ?_
  rintro _ _ rng₂ ⟨rfl, rfl⟩
  refine .bind (.guardedWhole h₁ fun h => .writeWhole h₁ h) fun _ known₂ rng₂ h₂ => ?_
  refine .bind (.guardedWhole h₂ fun h => .writeWhole h₂ (by simpa using h))
    fun _ known₃ rng₃ h₃ => ?_
  refine .bind (.guardedWhole h₃ fun h => .writeWhole h₃ h) fun _ known₄ rng₄ h₄ => ?_
  refine .bind (.guardedWhole h₄ fun h => ?_) fun _ known₅ rng₅ h₅ => ?_
  · refine (fillRandomBytes_yields (by omega) (by omega) (by omega)).mono fun _ known' _ hlen => ?_
    omega
  refine .bind (.guardedWhole h₅ fun h => ?_) fun _ known₆ rng₆ h₆ => ?_
  · have hattr := stunAttrLen_le h
    refine .bind (.writeWhole h₅ (Nat.le_trans (Nat.le_add_right 24 _) hattr)) ?_
    intro _ known₆ rng₆ h₆
    refine .bind (.randomBytes _) ?_
    rintro value _ rng₇ ⟨hvalue, rfl⟩
    exact .writeWhole h₆ (by rwa [List.length_map, hvalue])
  refine .guardedWhole h₆ fun h => ?_
  refine (fillRandomBytes_yields (by omega) h (Nat.le_refl _)).mono fun _ known' _ hlen => ?_
  omega

end

/-! ### SIP -/

/-- The last `width` digits of `n`, in lower-case hexadecimal. -/
def hexBytes (width n : Nat) : Bytes :=
  (List.range width).reverse.map fun i =>
    let digit := n / 16 ^ i % 16
    UInt8.ofNat (if digit < 10 then 48 + digit else 87 + digit)

def crlf : Bytes := [13, 10]

/-- Writes a line and moves on, when it fits with two bytes to spare. -/
def putSipLine (pos : Nat) (line : Bytes) : Filler (Option Nat) := do
  let size ← size
  if pos + line.length + 2 > size then return none
  else
    write pos line
    return some (pos + line.length)

/-- Puts lines as long as they fit; the position after the last that did. -/
def putSipLines : Nat → List Bytes → Filler Nat
  | pos, [] => return pos
  | pos, line :: lines => do
    match ← putSipLine pos line with
    | none => return pos
    | some pos => putSipLines pos lines

/-- The blank line that ends a request, and spaces for the rest. -/
def endSip (pos : Nat) : Filler Bool := do
  let size ← size
  write pos crlf
  write (pos + 2) (List.replicate (size - (pos + 2)) 32)
  return true

def emitSip (method user host : Bytes) (requireVia : Bool) : Filler Bool := do
  let token ← word
  let address := user ++ ascii "@" ++ host
  match ← putSipLine 0 (method ++ ascii " sip:" ++ address ++ ascii " SIP/2.0" ++ crlf) with
  | none => return false
  | some pos =>
    match ← putSipLine pos (ascii "Via: SIP/2.0/UDP " ++ host ++ ascii ";branch=z9hG4bK" ++
        hexBytes 8 token ++ crlf) with
    | none => if requireVia then return false else endSip pos
    | some pos =>
      let pos ← putSipLines pos
        [ascii "Max-Forwards: 70" ++ crlf,
          ascii "From: <sip:" ++ address ++ ascii ">;tag=" ++ hexBytes 4 token ++ crlf,
          ascii "To: <sip:" ++ address ++ ascii ">" ++ crlf,
          ascii "Call-ID: " ++ hexBytes 8 token ++ ascii "@" ++ host ++ crlf,
          ascii "CSeq: 1 " ++ method ++ crlf]
      endSip pos

def SIP_SEEDS : List (Bytes × Bytes × Bytes) :=
  [("OPTIONS", "u", "x"), ("OPTIONS", "100", "pbx"), ("REGISTER", "101", "gw"),
    ("MESSAGE", "noc", "lan"), ("OPTIONS", "m", "voip"), ("REGISTER", "sip", "edge")].map
    fun (method, user, host) => (ascii method, ascii user, ascii host)

/-- The first request that fits: each alternative is tried only after the last failed. -/
def firstSip (requireVia : Bool) : List (Bytes × Bytes × Bytes) → Filler Bool
  | [] => return false
  | (method, user, host) :: rest => do
    if ← emitSip method user host requireVia then return true else firstSip requireVia rest

def runSipCandidateChain (seed : Bytes × Bytes × Bytes) (domain : Option Bytes)
    (requireVia : Bool) : Filler Bool :=
  let (method, user, host) := seed
  let withDomain := match domain with
    | none => []
    | some domain =>
      [(method, user, host ++ ascii "." ++ domain), (method, user, domain),
        (ascii "OPTIONS", ascii "u", ascii "x." ++ domain),
        (ascii "OPTIONS", ascii "u", domain)]
  firstSip requireVia (withDomain ++ [seed, (ascii "OPTIONS", ascii "u", ascii "x")])

def fillSip (domain : Option Bytes) : Filler Unit := do
  fillRandom
  let size ← size
  guarded (SIP_REQUEST_LINE_MIN ≤ size) do
    let choice ← word
    let seed := SIP_SEEDS.getD (choice % SIP_SEEDS.length) ([], [], [])
    if ← runSipCandidateChain seed domain true then return ()
    else
      let _ ← runSipCandidateChain seed domain false
      return ()

section

variable {n : Nat} {known : Bytes} {rng : Rng} (hknown : known.length = n)
include hknown

/-- Where a request may go on: there is room for the blank line. -/
theorem putSipLine_yields (pos : Nat) (line : Bytes) :
    Yields n known rng (putSipLine pos line) fun next known' _ =>
      known'.length = n ∧ ∀ p, next = some p → p + 2 ≤ n := by
  refine .bind .size ?_
  rintro _ _ rng₁ ⟨rfl, rfl⟩
  refine .ite (fun _ => .pure ⟨hknown, by simp⟩) fun hfit => ?_
  refine .bind (.writeWhole hknown (by omega)) fun _ known₁ rng₂ h₁ => .pure ⟨h₁, ?_⟩
  rintro p ⟨⟩
  omega

theorem putSipLines_yields {pos : Nat} (lines : List Bytes) (hpos : pos + 2 ≤ n) :
    Yields n known rng (putSipLines pos lines) fun next known' _ =>
      known'.length = n ∧ next + 2 ≤ n := by
  induction lines generalizing pos known rng with
  | nil => exact .pure ⟨hknown, hpos⟩
  | cons line lines ih =>
    refine .bind (putSipLine_yields hknown pos line) fun next known₁ rng₁ hnext => ?_
    cases next with
    | none => exact .pure ⟨hnext.1, hpos⟩
    | some p => exact ih hnext.1 (hnext.2 p rfl)

theorem endSip_yields {pos : Nat} (hpos : pos + 2 ≤ n) :
    Yields n known rng (endSip pos) (Whole n) := by
  refine .bind .size ?_
  rintro _ _ rng₁ ⟨rfl, rfl⟩
  refine .bind (.writeWhole hknown hpos) fun _ known₁ rng₂ h₁ => ?_
  refine .bind (.writeWhole h₁ ?_) fun _ known₂ rng₃ h₂ => .pure h₂
  simp only [List.length_replicate]
  omega

theorem emitSip_yields (method user host : Bytes) (requireVia : Bool) :
    Yields n known rng (emitSip method user host requireVia) (Whole n) := by
  refine .bind .word ?_
  rintro token _ rng₁ rfl
  refine .bind (putSipLine_yields hknown 0 _) fun next known₁ rng₂ hnext => ?_
  cases next with
  | none => exact .pure hnext.1
  | some pos =>
    refine .bind (putSipLine_yields hnext.1 pos _) fun via known₂ rng₃ hvia => ?_
    cases via with
    | none => exact .ite (fun _ => .pure hvia.1) fun _ => endSip_yields hvia.1 (hnext.2 pos rfl)
    | some pos =>
      refine .bind (putSipLines_yields hvia.1 _ (hvia.2 pos rfl)) fun _ known₃ rng₄ hlines => ?_
      exact endSip_yields hlines.1 hlines.2

theorem firstSip_yields (requireVia : Bool) (candidates : List (Bytes × Bytes × Bytes)) :
    Yields n known rng (firstSip requireVia candidates) (Whole n) := by
  induction candidates generalizing known rng with
  | nil => exact .pure hknown
  | cons candidate rest ih =>
    refine .bind (emitSip_yields hknown _ _ _ _) fun done known₁ rng₁ h₁ => ?_
    exact .ite (fun _ => .pure h₁) fun _ => ih h₁

omit hknown in
theorem fillSip_yields (domain : Option Bytes) : Yields n [] rng (fillSip domain) (Whole n) := by
  refine .bind fillRandom_yields fun _ known₁ rng₁ h₁ => .bind .size ?_
  rintro _ _ rng₂ ⟨rfl, rfl⟩
  refine .guardedWhole h₁ fun _ => ?_
  refine .bind .word ?_
  rintro choice _ rng₃ rfl
  refine .bind (firstSip_yields h₁ _ _) fun done known₂ rng₄ h₂ => ?_
  refine .ite (fun _ => .pure h₂) fun _ => ?_
  exact .bind (firstSip_yields h₂ _ _) fun _ known₃ rng₅ h₃ => .pure h₃

end

/-! ### DNS -/

def isAsciiAlphanumeric (byte : UInt8) : Bool :=
  (48 ≤ byte && byte ≤ 57) || (65 ≤ byte && byte ≤ 90) || (97 ≤ byte && byte ≤ 122)

/-- The scan over a host name, with the length of the label read so far. -/
def validLabels (labelLen : Nat) (labelStart previousHyphen : Bool) : Bytes → Bool
  | [] => labelLen > 0 && !previousHyphen
  | byte :: rest =>
    if byte = 46 then
      if labelLen = 0 ∨ previousHyphen then false else validLabels 0 true false rest
    else if !(isAsciiAlphanumeric byte || byte = 45) then false
    else if labelStart && byte = 45 then false
    else if labelLen + 1 > 63 then false
    else validLabels (labelLen + 1) false (byte = 45) rest

def isValidImitationHost (host : Bytes) : Bool :=
  if host.isEmpty || host.length > 253 || host.head? = some 46 || host.head? = some 45 ||
      host.getLast? = some 46 || host.getLast? = some 45 then false
  else validLabels 0 true false host

def dnsQnameWireSize (name : Bytes) : Nat :=
  if isValidImitationHost name then name.length + 2 else 0

def writeDnsHeader : Filler Nat := do
  let id ← randomBytes 2
  write 0 id
  write 2 ([0x01, 0x20, 0x00, 0x01] ++ List.replicate 6 0)
  return 12

def writeDnsQuestionTail (pos : Nat) : Filler Nat := do
  write pos [0x00, 0x01, 0x00, 0x01]
  return pos + 4

/-- `none` where the loop over the labels gives up. -/
def writeDnsLabels : Nat → List Bytes → Filler (Option Nat)
  | pos, [] => return some pos
  | pos, label :: labels => do
    let size ← size
    if label.length = 0 ∨ label.length > 63 ∨ pos + 1 + label.length > size then return none
    else
      write pos [UInt8.ofNat label.length]
      write (pos + 1) label
      writeDnsLabels (pos + 1 + label.length) labels

def writeDnsQname (pos : Nat) (name : Bytes) : Filler (Option Nat) := do
  let size ← size
  let wireSize := dnsQnameWireSize name
  if wireSize = 0 ∨ pos > size ∨ wireSize > size - pos then return none
  else
    match ← writeDnsLabels pos (name.splitOn 46) with
    | none => return none
    | some pos =>
      if pos ≥ size then return none
      else
        write pos [0x00]
        return some (pos + 1)

/-- An OPT record whose padding option spans to `totalLen`, past the slice. -/
def writeDnsOptPadding (writeLimit totalLen pos arcountPos : Nat) : Filler Bool := do
  if totalLen < writeLimit then return false
  else if pos > writeLimit ∨ writeLimit - pos < DNS_OPT_MIN_WIRE_SIZE then return false
  else if arcountPos ≥ writeLimit - 1 then return false
  else
    let rest ← sub totalLen pos
    let rest ← sub rest DNS_OPT_FIXED_LEN
    if rest > 0xffff then return false
    else
      let optionCode := if totalLen > writeLimit then 0xfde9 else 0x000c
      write pos [0x00, 0x00, 0x29, 0x10, 0x00, 0x00, 0x00, 0x00, 0x00]
      let rdataLen ← sub totalLen (pos + 9)
      let rdataLen ← sub rdataLen 2
      write (pos + 9) (beBytes 2 rdataLen)
      let padValueLen ← sub rdataLen 4
      write (pos + 11) (beBytes 2 optionCode ++ beBytes 2 padValueLen)
      write (pos + 15) (List.replicate (writeLimit - (pos + 15)) 0)
      write arcountPos [0x00, 0x01]
      return true

def emitDnsDomain (totalLen : Nat) (name : Bytes) : Filler Bool := do
  let size ← size
  let qnameSize := dnsQnameWireSize name
  if qnameSize = 0 ∨ size < 12 + qnameSize + 4 + DNS_OPT_MIN_WIRE_SIZE then return false
  else
    let pos ← writeDnsHeader
    match ← writeDnsQname pos name with
    | none => return false
    | some pos =>
      let pos ← writeDnsQuestionTail pos
      writeDnsOptPadding size totalLen pos 10

def fillDnsMinimalRootQuery : Filler Unit := do
  let size ← size
  guarded (size ≥ 2) do
    let id ← randomBytes 2
    write 0 id
  guarded (size ≥ 4) (write 2 [0x01, 0x20])
  guarded (size ≥ 6) (write 4 [0x00, 0x01])
  guarded (min size 12 > 6) (write 6 (List.replicate (min size 12 - 6) 0))
  guarded (size > 12) (write 12 [0x00])
  guarded (size > 13) (write 13 [0x00])
  guarded (size > 14) (write 14 [0x01])
  guarded (size > 15) (write 15 [0x00])
  guarded (size > 16) (write 16 [0x01])
  guarded (size > 17) (write 17 (List.replicate (size - 17) 0))

def DNS_PREFIXES : List Bytes := ["www", "api", "cdn", "dns", ""].map ascii

/-- The first of the five names, from a random one on, that fits one of the budgets. -/
def chooseDnsDomainQname (domain : Bytes) (maxWireSize optReserve : Nat) :
    Filler (Option Bytes) :=
  if !isValidImitationHost domain then return none
  else do
    let choice ← word
    let start := choice % DNS_PREFIXES.length
    let budgets := [if optReserve > 0 ∧ optReserve ≤ maxWireSize then maxWireSize - optReserve
      else 0, maxWireSize]
    let candidates := (DNS_PREFIXES.rotate start).map fun label =>
      if label.isEmpty then domain else label ++ ascii "." ++ domain
    return budgets.findSome? fun budget =>
      if budget = 0 then none
      else candidates.find? fun candidate =>
        dnsQnameWireSize candidate > 0 && dnsQnameWireSize candidate ≤ budget

/-- A query for the configured domain, where one fits. -/
def fillDnsDomain (totalLen : Nat) (domain : Option Bytes) : Filler Bool := do
  let size ← size
  match domain with
  | none => return false
  | some domain =>
    match ← chooseDnsDomainQname domain (size - 16) DNS_OPT_MIN_WIRE_SIZE with
    | none => return false
    | some name => emitDnsDomain totalLen name

/-- A root query with padding over what follows the slice. -/
def fillDnsPaddedRootQuery (trailingSize : Nat) : Filler Bool := do
  let size ← size
  if trailingSize > 0 ∧ size ≥ 12 + 1 + 4 + DNS_OPT_MIN_WIRE_SIZE then
    let pos ← writeDnsHeader
    write pos [0x00]
    let pos ← writeDnsQuestionTail (pos + 1)
    writeDnsOptPadding size (size + trailingSize) pos 10
  else return false

def fillDns (trailingSize : Nat) (domain : Option Bytes) : Filler Unit := do
  let size ← size
  guarded (size ≠ 0) do
    if ← fillDnsDomain (size + trailingSize) domain then return ()
    else if ← fillDnsPaddedRootQuery trailingSize then return ()
    else fillDnsMinimalRootQuery

def fillProtocolLike (protocol : AmneziaImitationProtocol) (domain : Option Bytes)
    (trailingSize : Nat) : Filler Unit :=
  match protocol with
  | .none | .auto => fillRandom
  | .dns => fillDns trailingSize domain
  | .quic => fillQuicShort
  | .sip => fillSip domain
  | .stun => fillStun

/-! ### What the DNS filler leaves -/

/-- The labels of a name as they stand on the wire. -/
def dnsLabels (labels : List Bytes) : Bytes :=
  labels.flatMap fun label => UInt8.ofNat label.length :: label

/-- A name that can be read back: labels of 1 to 63 bytes, 255 bytes in all. -/
structure DnsName (qname : Bytes) : Prop where
  of :: ex : ∃ labels : List Bytes, (∀ label ∈ labels, label.length ≠ 0 ∧ label.length ≤ 63) ∧
    qname = dnsLabels labels ++ [0x00] ∧ qname.length ≤ 255

/-- A query with one question for an address record, and a number of additional records. -/
def dnsQuery (id : Bytes) (additional : UInt8) (qname : Bytes) : Bytes :=
  id ++ [0x01, 0x20, 0x00, 0x01, 0x00, 0x00, 0x00, 0x00, 0x00, additional] ++
    (qname ++ [0x00, 0x01, 0x00, 0x01])

/-- An OPT record at `pos` with one option, both running to `totalLen`, as far as a slice of
`size` bytes holds it. -/
def dnsOpt (size totalLen pos optionCode : Nat) : Bytes :=
  [0x00, 0x00, 0x29, 0x10, 0x00, 0x00, 0x00, 0x00, 0x00] ++
    beBytes 2 (totalLen - (pos + DNS_OPT_FIXED_LEN)) ++ beBytes 2 optionCode ++
    beBytes 2 (totalLen - (pos + DNS_OPT_MIN_WIRE_SIZE)) ++
    List.replicate (size - (pos + DNS_OPT_MIN_WIRE_SIZE)) 0

/-- What the DNS filler writes of a slice of `size` bytes: a query padded up to `totalLen`, a
query for the root and zeros, or as much of that as a short slice takes. -/
inductive DnsFilled (size totalLen : Nat) (written : Bytes) : Prop where
  | padded (id qname : Bytes) (pos optionCode : Nat) (hid : id.length = 2) (hname : DnsName qname)
    (hpos : pos = 12 + qname.length + 4) (hroom : pos + DNS_OPT_MIN_WIRE_SIZE ≤ size)
    (htotal : size ≤ totalLen) (hfits : totalLen - (pos + DNS_OPT_FIXED_LEN) ≤ 0xffff)
    (hwritten : written = dnsQuery id 1 qname ++ dnsOpt size totalLen pos optionCode)
  | root (id : Bytes) (hid : id.length = 2) (hsize : 17 ≤ size)
    (hwritten : written = dnsQuery id 0 [0x00] ++ List.replicate (size - 17) 0)
  | short (hsize : size < 17)
    (hlen : written.length = if size = 1 ∨ size = 3 ∨ size = 5 then size - 1 else size)

section

variable {n : Nat} {known : Bytes} {rng : Rng}

/-- Each label costs one byte more than its length, and the dots pay for all but one. -/
theorem sum_splitOn (name : Bytes) :
    ((name.splitOn 46).map (·.length + 1)).sum = name.length + 1 := by
  induction name with
  | nil => rfl
  | cons byte rest ih =>
    rw [List.splitOn, List.splitOnP_cons_eq_if_modifyHead]
    split
    · simp only [List.map_cons, List.length_nil, List.sum_cons, List.length_cons]
      rw [List.splitOn] at ih
      omega
    · obtain ⟨label, labels, hsplit⟩ := List.exists_cons_of_ne_nil
        (List.splitOnP_ne_nil (· == (46 : UInt8)) rest)
      rw [List.splitOn, hsplit] at ih
      rw [hsplit]
      simp only [List.modifyHead_cons, List.map_cons, List.length_cons, List.sum_cons] at ih ⊢
      omega

theorem length_dnsLabels (labels : List Bytes) :
    (dnsLabels labels).length = (labels.map (·.length + 1)).sum := by
  simp [dnsLabels]

@[simp] theorem length_dnsQuery {id : Bytes} (hid : id.length = 2) (additional : UInt8)
    (qname : Bytes) : (dnsQuery id additional qname).length = 12 + qname.length + 4 := by
  simp only [dnsQuery, List.length_append, List.length_cons, List.length_nil]
  omega

theorem dnsName_root : DnsName [0x00] :=
  ⟨[], nofun, rfl, by decide⟩

theorem writeDnsHeader_yields (h : 12 ≤ n) :
    Yields n [] rng writeDnsHeader fun pos known' _ => pos = 12 ∧ ∃ id : Bytes, id.length = 2 ∧
      known' = id ++ [0x01, 0x20, 0x00, 0x01, 0x00, 0x00, 0x00, 0x00, 0x00, 0x00] := by
  refine .bind (.randomBytes 2) ?_
  rintro drawn _ rng₁ ⟨hid, rfl⟩
  refine .bind (.append rfl (by omega)) ?_
  rintro _ id rng₂ rfl
  refine .bind (.append hid.symm h) ?_
  rintro _ _ rng₃ rfl
  exact .pure ⟨rfl, id, hid, rfl⟩

theorem writeDnsQuestionTail_yields {pos : Nat} (hpos : pos = known.length) (h : pos + 4 ≤ n) :
    Yields n known rng (writeDnsQuestionTail pos) fun next known' _ =>
      next = pos + 4 ∧ known' = known ++ [0x00, 0x01, 0x00, 0x01] := by
  refine .bind (.append hpos h) ?_
  rintro _ _ rng₁ rfl
  exact .pure ⟨rfl, rfl⟩

theorem writeDnsLabels_yields {pos : Nat} (hpos : pos = known.length) (labels : List Bytes) :
    Yields n known rng (writeDnsLabels pos labels) fun next known' _ => ∀ p, next = some p →
      p = known'.length ∧ known' = known ++ dnsLabels labels ∧
        ∀ label ∈ labels, label.length ≠ 0 ∧ label.length ≤ 63 := by
  induction labels generalizing pos known rng with
  | nil =>
    refine .pure ?_
    rintro p ⟨⟩
    exact ⟨hpos, (List.append_nil known).symm, nofun⟩
  | cons label labels ih =>
    refine .bind .size ?_
    rintro _ _ rng₁ ⟨rfl, rfl⟩
    refine .ite (fun _ => .pure (by simp)) fun hfit => ?_
    refine .bind (.append hpos (by simp only [List.length_singleton]; omega)) ?_
    rintro _ _ rng₂ rfl
    refine .bind (.append (by simp [hpos]) (by omega)) ?_
    rintro _ _ rng₃ rfl
    refine (ih (by simp [hpos]; omega)).mono fun next known' rng₄ hnext p hp => ?_
    obtain ⟨hlen, hknown, hlabels⟩ := hnext p hp
    refine ⟨hlen, by simp [hknown, dnsLabels], ?_⟩
    intro other hmem
    rcases List.mem_cons.mp hmem with rfl | hmem
    · omega
    · exact hlabels other hmem

/-- A name that is written takes its wire size, and can be read back. -/
theorem writeDnsQname_yields {pos : Nat} (hpos : pos = known.length) (name : Bytes) :
    Yields n known rng (writeDnsQname pos name) fun next known' _ => ∀ p, next = some p →
      p = known'.length ∧ ∃ qname, known' = known ++ qname ∧ DnsName qname ∧
        qname.length = dnsQnameWireSize name := by
  refine .bind .size ?_
  rintro _ _ rng₁ ⟨rfl, rfl⟩
  refine .ite (fun _ => .pure (by simp)) fun hfit => ?_
  have hwire : dnsQnameWireSize name = name.length + 2 ∧ name.length ≤ 253 := by
    unfold dnsQnameWireSize at hfit ⊢
    split
    · next hvalid =>
      refine ⟨rfl, ?_⟩
      by_contra hlong
      simp [isValidImitationHost, Nat.not_le.mp hlong] at hvalid
    · next hvalid => simp [hvalid] at hfit
  refine .bind (writeDnsLabels_yields hpos _) fun next known₁ rng₂ hnext => ?_
  cases next with
  | none => exact .pure (by simp)
  | some q =>
    obtain ⟨hq, hknown, hlabels⟩ := hnext q rfl
    refine .ite (fun _ => .pure (by simp)) fun hroom => ?_
    refine .bind (.append hq (by simp only [List.length_singleton]; omega)) ?_
    rintro _ _ rng₃ rfl
    refine .pure ?_
    rintro p ⟨⟩
    have hlen : (dnsLabels (name.splitOn 46) ++ [0x00]).length = dnsQnameWireSize name := by
      rw [List.length_append, length_dnsLabels, sum_splitOn, hwire.1]
      rfl
    refine ⟨by simp [hq], dnsLabels (name.splitOn 46) ++ [0x00], by simp [hknown], ?_, hlen⟩
    exact ⟨_, hlabels, rfl, by omega⟩

/-- Counting an additional record. -/
theorem overwrite_dnsQuery {id : Bytes} (hid : id.length = 2) (qname rest : Bytes) :
    overwrite (dnsQuery id 0 qname ++ rest) 10 [0x00, 0x01] = dnsQuery id 1 qname ++ rest := by
  have hcount := @overwrite_append [0x00, 0x01] (id ++ [0x01, 0x20, 0x00, 0x01, 0x00, 0x00, 0x00, 0x00])
    [0x00, 0x00] (qname ++ [0x00, 0x01, 0x00, 0x01] ++ rest) rfl
  simp only [List.length_append, hid] at hcount
  simpa [dnsQuery] using hcount

/-- Nothing is asked of the position: the function tests it before it writes. -/
theorem writeDnsOptPadding_yields {id qname : Bytes} {pos totalLen : Nat} (hid : id.length = 2)
    (hname : DnsName qname) (hpos : pos = 12 + qname.length + 4) :
    Yields n (dnsQuery id 0 qname) rng (writeDnsOptPadding n totalLen pos 10) fun done known' _ =>
      done = true → DnsFilled n totalLen known' ∧ known'.length = n := by
  refine .ite (fun _ => .pure nofun) fun htotal => ?_
  refine .ite (fun _ => .pure nofun) fun hroom => ?_
  refine .ite (fun _ => .pure nofun) fun hcount => ?_
  simp only [DNS_OPT_MIN_WIRE_SIZE, DNS_OPT_FIXED_LEN] at hroom
  refine .bind (.sub (by omega)) ?_
  rintro _ _ rng₁ ⟨rfl, rfl⟩
  refine .bind (.sub (by simp only [DNS_OPT_FIXED_LEN]; omega)) ?_
  rintro _ _ rng₂ ⟨rfl, rfl⟩
  refine .ite (fun _ => .pure nofun) fun hfits => ?_
  have hlen := length_dnsQuery hid 0 qname
  refine .bind (.append (by omega) (by simp only [List.length_cons, List.length_nil]; omega)) ?_
  rintro _ _ rng₃ rfl
  refine .bind (.sub (by omega)) ?_
  rintro _ _ rng₄ ⟨rfl, rfl⟩
  refine .bind (.sub (by omega)) ?_
  rintro _ _ rng₅ ⟨rfl, rfl⟩
  refine .bind (.append (by simp; omega) (by rw [length_beBytes]; omega)) ?_
  rintro _ _ rng₆ rfl
  refine .bind (.sub (by omega)) ?_
  rintro _ _ rng₇ ⟨rfl, rfl⟩
  refine .bind (.append (by simp; omega)
    (by rw [List.length_append, length_beBytes, length_beBytes]; omega)) ?_
  rintro _ _ rng₈ rfl
  refine .bind (.append (by simp; omega) (by rw [List.length_replicate]; omega)) ?_
  rintro _ _ rng₉ rfl
  refine .bind (.write (by simp; omega) (by simp only [List.length_cons, List.length_nil]; omega)) ?_
  rintro _ known' rng₁₀ ⟨hknown, hlen'⟩
  refine .pure fun _ => ⟨?_, ?_⟩
  · refine .padded id qname pos (if totalLen > n then 0xfde9 else 0x000c) hid hname hpos ?_ ?_ ?_ ?_
    · simp only [DNS_OPT_MIN_WIRE_SIZE, DNS_OPT_FIXED_LEN]
      omega
    · omega
    · omega
    · simp only [List.append_assoc] at hknown
      rw [hknown, overwrite_dnsQuery hid]
      simp only [dnsOpt, DNS_OPT_MIN_WIRE_SIZE, DNS_OPT_FIXED_LEN, List.append_assoc, Nat.sub_sub]
  · simp only [List.length_append, List.length_cons, List.length_nil, length_beBytes,
      List.length_replicate] at hlen'
    omega

/-- A slice too short for an OPT record is left alone. -/
theorem emitDnsDomain_yields (totalLen : Nat) (name : Bytes) :
    Yields n [] rng (emitDnsDomain totalLen name) fun done known' _ =>
      (done = true → DnsFilled n totalLen known' ∧ known'.length = n) ∧ (n < 32 → known' = []) := by
  refine .bind .size ?_
  rintro _ _ rng₁ ⟨rfl, rfl⟩
  refine .ite (fun _ => .pure ⟨nofun, fun _ => rfl⟩) fun hfit => ?_
  simp only [DNS_OPT_MIN_WIRE_SIZE, DNS_OPT_FIXED_LEN] at hfit
  refine Yields.mono ?_ fun done known' _ h => ⟨h, fun hshort => by omega⟩
  refine .bind (writeDnsHeader_yields (by omega)) ?_
  rintro _ _ rng₂ ⟨rfl, id, hid, rfl⟩
  refine .bind (writeDnsQname_yields (by simp [hid]) name) fun next known₁ rng₃ hnext => ?_
  cases next with
  | none => exact .pure nofun
  | some pos =>
    obtain ⟨hpos, qname, hknown, hname, hsize⟩ := hnext pos rfl
    have hlen : known₁.length = 12 + qname.length := by
      simp only [hknown, List.length_append, hid, List.length_cons, List.length_nil]
    refine .bind (writeDnsQuestionTail_yields hpos (by omega)) ?_
    rintro _ known₂ rng₄ ⟨rfl, htail⟩
    obtain rfl : known₂ = dnsQuery id 0 qname := by
      simp [htail, hknown, dnsQuery]
    exact writeDnsOptPadding_yields hid hname (by omega)

theorem chooseDnsDomainQname_yields (domain : Bytes) (maxWireSize optReserve : Nat) :
    Yields n known rng (chooseDnsDomainQname domain maxWireSize optReserve)
      fun _ known' _ => known' = known := by
  refine .ite (fun _ => .pure rfl) fun _ => .bind .word ?_
  rintro choice _ rng₁ rfl
  exact .pure rfl

theorem fillDnsDomain_yields (totalLen : Nat) (domain : Option Bytes) :
    Yields n [] rng (fillDnsDomain totalLen domain) fun done known' _ =>
      (done = true → DnsFilled n totalLen known' ∧ known'.length = n) ∧ (n < 32 → known' = []) := by
  refine .bind .size ?_
  rintro _ _ rng₁ ⟨rfl, rfl⟩
  cases domain with
  | none => exact .pure ⟨nofun, fun _ => rfl⟩
  | some domain =>
    refine .bind (chooseDnsDomainQname_yields domain _ _) ?_
    rintro name _ rng₂ rfl
    cases name with
    | none => exact .pure ⟨nofun, fun _ => rfl⟩
    | some name => exact emitDnsDomain_yields totalLen name

theorem fillDnsPaddedRootQuery_yields (trailingSize : Nat) :
    Yields n [] rng (fillDnsPaddedRootQuery trailingSize) fun done known' _ =>
      (done = true → DnsFilled n (n + trailingSize) known' ∧ known'.length = n) ∧
        (n < 32 → known' = []) := by
  refine .bind .size ?_
  rintro _ _ rng₁ ⟨rfl, rfl⟩
  refine .ite (fun hfit => ?_) fun _ => .pure ⟨nofun, fun _ => rfl⟩
  simp only [DNS_OPT_MIN_WIRE_SIZE, DNS_OPT_FIXED_LEN] at hfit
  refine Yields.mono ?_ fun done known' _ h => ⟨h, fun hshort => by omega⟩
  refine .bind (writeDnsHeader_yields (by omega)) ?_
  rintro _ _ rng₂ ⟨rfl, id, hid, rfl⟩
  refine .bind (.append (by simp [hid]) (by simp only [List.length_singleton]; omega)) ?_
  rintro _ _ rng₃ rfl
  refine .bind (writeDnsQuestionTail_yields (by simp [hid]) (by omega)) ?_
  rintro _ known₂ rng₄ ⟨rfl, htail⟩
  obtain rfl : known₂ = dnsQuery id 0 [0x00] := by
    simp [htail, dnsQuery]
  exact writeDnsOptPadding_yields hid dnsName_root rfl

theorem guardedAppend_yields {test : Prop} [Decidable test] {pos : Nat} {new : Bytes} (htest : test)
    (hpos : pos = known.length) (h : pos + new.length ≤ n) :
    Yields n known rng (guarded test (write pos new)) fun _ known' _ => known' = known ++ new :=
  .guarded (fun _ => .append hpos h) fun hnot => absurd htest hnot

theorem guardedWrite_yields {test : Prop} [Decidable test] {pos c : Nat} {new : Bytes}
    (hpos : test → pos ≤ known.length ∧ pos + new.length ≤ n ∧
      max known.length (pos + new.length) = c) (hneg : ¬ test → known.length = c) :
    Yields n known rng (guarded test (write pos new)) fun _ known' _ => known'.length = c := by
  refine .guarded (fun htest => ?_) hneg
  obtain ⟨hle, hroom, hmax⟩ := hpos htest
  exact (Yields.write hle hroom).mono fun _ known' _ hwritten => hwritten.2.trans hmax

theorem dnsId_yields : Yields n [] rng (guarded (n ≥ 2) do
      let id ← randomBytes 2
      write 0 id) fun _ known' _ => known'.length = min (n / 2 * 2) 2 := by
  refine .guarded (fun hsize => ?_) fun hsize => by simp only [List.length_nil]; omega
  refine .bind (.randomBytes 2) ?_
  rintro id _ rng₁ ⟨hid, rfl⟩
  refine (Yields.append rfl (by simp only [List.length_nil]; omega)).mono ?_
  rintro _ _ _ rfl
  omega

/-- From 17 bytes on, every part of the query is there. -/
theorem fillDnsMinimalRootQuery_long (h : 17 ≤ n) :
    Yields n [] rng fillDnsMinimalRootQuery fun _ known' _ => ∃ id : Bytes, id.length = 2 ∧
      known' = dnsQuery id 0 [0x00] ++ List.replicate (n - 17) 0 := by
  have hsix : min n 12 - 6 = 6 := by omega
  refine .bind .size ?_
  rintro _ _ rng₁ ⟨rfl, rfl⟩
  refine .bind dnsId_yields fun _ id rng₂ hid => ?_
  replace hid : id.length = 2 := by omega
  refine .bind (guardedAppend_yields (by omega) hid.symm (by simp; omega)) ?_
  rintro _ _ rng₃ rfl
  refine .bind (guardedAppend_yields (by omega) (by simp [hid]) (by simp; omega)) ?_
  rintro _ _ rng₄ rfl
  refine .bind (guardedAppend_yields (by omega) (by simp [hid]) (by simp; omega)) ?_
  rintro _ _ rng₅ rfl
  rw [hsix]
  refine .bind (guardedAppend_yields (by omega) (by simp [hid]) (by simp; omega)) ?_
  rintro _ _ rng₆ rfl
  refine .bind (guardedAppend_yields (by omega) (by simp [hid]) (by simp; omega)) ?_
  rintro _ _ rng₇ rfl
  refine .bind (guardedAppend_yields (by omega) (by simp [hid]) (by simp; omega)) ?_
  rintro _ _ rng₈ rfl
  refine .bind (guardedAppend_yields (by omega) (by simp [hid]) (by simp; omega)) ?_
  rintro _ _ rng₉ rfl
  refine .bind (guardedAppend_yields (by omega) (by simp [hid]) (by simp; omega)) ?_
  rintro _ known₁ rng₁₀ rfl
  refine .guarded (fun _ => ?_) fun hsize => ⟨id, hid, ?_⟩
  · refine (Yields.append (by simp [hid]) (by simp; omega)).mono ?_
    rintro _ _ _ rfl
    exact ⟨id, hid, by simp [dnsQuery]⟩
  · rw [Nat.sub_eq_zero_of_le (by omega)]
    simp [dnsQuery]

/-- The identifier, the flags and the question count are written two bytes at a time. -/
theorem fillDnsMinimalRootQuery_short (h : n < 17) :
    Yields n [] rng fillDnsMinimalRootQuery fun _ known' _ =>
      known'.length = if n = 1 ∨ n = 3 ∨ n = 5 then n - 1 else n := by
  refine .bind .size ?_
  rintro n _ rng₁ ⟨rfl, rfl⟩
  refine .bind dnsId_yields fun _ known₁ rng₂ h₁ => ?_
  refine .bind (guardedWrite_yields (c := min (n / 2 * 2) 4) (by simp; omega) (by omega))
    fun _ known₂ rng₃ h₂ => ?_
  refine .bind (guardedWrite_yields (c := min (n / 2 * 2) 6) (by simp; omega) (by omega))
    fun _ known₃ rng₄ h₃ => ?_
  by_cases hsix : 6 < n
  · refine .bind (guardedWrite_yields (c := min n 12) (by simp; omega) (by omega))
      fun _ known₄ rng₅ h₄ => ?_
    refine .bind (guardedWrite_yields (c := min n 13) (by simp; omega) (by omega))
      fun _ known₅ rng₆ h₅ => ?_
    refine .bind (guardedWrite_yields (c := min n 14) (by simp; omega) (by omega))
      fun _ known₆ rng₇ h₆ => ?_
    refine .bind (guardedWrite_yields (c := min n 15) (by simp; omega) (by omega))
      fun _ known₇ rng₈ h₇ => ?_
    refine .bind (guardedWrite_yields (c := n) (by simp; omega) (by omega))
      fun _ known₈ rng₉ h₈ => ?_
    refine .bind (guardedWrite_yields (c := n) (by omega) (by omega)) fun _ known₉ rng₁₀ h₉ => ?_
    refine guardedWrite_yields (by omega) fun _ => ?_
    rw [h₉, if_neg (by omega)]
  · refine .bind (guardedWrite_yields (c := n / 2 * 2) (by omega) (by omega))
      fun _ known₄ rng₅ h₄ => ?_
    refine .bind (guardedWrite_yields (c := n / 2 * 2) (by omega) (by omega))
      fun _ known₅ rng₆ h₅ => ?_
    refine .bind (guardedWrite_yields (c := n / 2 * 2) (by omega) (by omega))
      fun _ known₆ rng₇ h₆ => ?_
    refine .bind (guardedWrite_yields (c := n / 2 * 2) (by omega) (by omega))
      fun _ known₇ rng₈ h₇ => ?_
    refine .bind (guardedWrite_yields (c := n / 2 * 2) (by omega) (by omega))
      fun _ known₈ rng₉ h₈ => ?_
    refine .bind (guardedWrite_yields (c := n / 2 * 2) (by omega) (by omega))
      fun _ known₉ rng₁₀ h₉ => ?_
    refine guardedWrite_yields (by omega) fun _ => ?_
    split <;> omega

theorem fillDnsMinimalRootQuery_yields (totalLen : Nat) :
    Yields n [] rng fillDnsMinimalRootQuery fun _ known' _ =>
      DnsFilled n totalLen known' ∧ (17 ≤ n → known'.length = n) := by
  by_cases hlong : 17 ≤ n
  · refine (fillDnsMinimalRootQuery_long hlong).mono fun _ known' _ hknown => ?_
    obtain ⟨id, hid, rfl⟩ := hknown
    refine ⟨.root id hid hlong rfl, fun _ => ?_⟩
    rw [List.length_append, length_dnsQuery hid, List.length_replicate, List.length_singleton]
    omega
  · refine (fillDnsMinimalRootQuery_short (Nat.not_le.mp hlong)).mono fun _ known' _ hknown => ?_
    exact ⟨.short (Nat.not_le.mp hlong) hknown, fun h => absurd h hlong⟩

/-- A whole slice leaves nothing of what was known before. -/
theorem append_drop_of_whole {written : Bytes} (hwhole : written.length = n)
    (hle : known.length ≤ n) : written ++ known.drop written.length = written := by
  rw [List.drop_eq_nil_of_le (by omega), List.append_nil]

/-- The last resort, over what an attempt that failed has left. -/
theorem fillDnsMinimalRootQuery_over {totalLen : Nat} (hknown : n < 32 → known = []) :
    Yields n known rng fillDnsMinimalRootQuery fun _ known' _ => DnsFilled n totalLen known' := by
  intro hle
  by_cases hshort : n < 32
  · rw [hknown hshort] at hle ⊢
    exact (fillDnsMinimalRootQuery_yields totalLen).mono (fun _ _ _ h => h.1) hle
  · refine (fillDnsMinimalRootQuery_yields totalLen).forget.mono ?_ hle
    rintro _ _ _ ⟨written, ⟨hfilled, hwhole⟩, rfl⟩
    rwa [append_drop_of_whole (hwhole (by omega)) hle]

theorem fillDnsPaddedRootQuery_over (trailingSize : Nat) (hknown : n < 32 → known = []) :
    Yields n known rng (fillDnsPaddedRootQuery trailingSize) fun done known' _ =>
      (done = true → DnsFilled n (n + trailingSize) known') ∧ (n < 32 → known' = []) := by
  intro hle
  by_cases hshort : n < 32
  · rw [hknown hshort] at hle ⊢
    refine (fillDnsPaddedRootQuery_yields trailingSize).mono (fun _ _ _ h => ⟨fun hdone => ?_, h.2⟩) hle
    exact (h.1 hdone).1
  · refine (fillDnsPaddedRootQuery_yields trailingSize).forget.mono ?_ hle
    rintro done _ _ ⟨written, ⟨hfilled, -⟩, rfl⟩
    refine ⟨fun hdone => ?_, fun h => absurd h hshort⟩
    obtain ⟨hpadded, hwhole⟩ := hfilled hdone
    rwa [append_drop_of_whole hwhole hle]

theorem fillDns_yields (trailingSize : Nat) (domain : Option Bytes) :
    Yields n [] rng (fillDns trailingSize domain) fun _ known' _ =>
      DnsFilled n (n + trailingSize) known' := by
  refine .bind .size ?_
  rintro n _ rng₁ ⟨rfl, rfl⟩
  refine .guarded (fun hne => ?_) fun hzero => ?_
  · refine .bind (fillDnsDomain_yields _ _) fun shaped known₁ rng₂ hshaped => ?_
    refine .ite (fun hdone => .pure (hshaped.1 hdone).1) fun _ => ?_
    refine .bind (fillDnsPaddedRootQuery_over _ hshaped.2) fun padded known₂ rng₃ hpadded => ?_
    refine .ite (fun hdone => .pure (hpadded.1 hdone)) fun _ => ?_
    exact fillDnsMinimalRootQuery_over hpadded.2
  · exact .short (by omega) (by simp [not_not.mp hzero])

theorem DnsFilled.length {size totalLen : Nat} {written : Bytes}
    (h : DnsFilled size totalLen written) :
    written.length = if size = 1 ∨ size = 3 ∨ size = 5 then size - 1 else size := by
  cases h with
  | padded id qname pos optionCode hid hname hpos hroom htotal hfits hwritten =>
    subst hwritten
    simp only [DNS_OPT_MIN_WIRE_SIZE, DNS_OPT_FIXED_LEN] at hroom
    rw [if_neg (by omega)]
    simp only [dnsOpt, List.length_append, length_dnsQuery hid, length_beBytes, List.length_cons,
      List.length_nil, List.length_replicate, DNS_OPT_MIN_WIRE_SIZE, DNS_OPT_FIXED_LEN]
    omega
  | root id hid hsize hwritten =>
    subst hwritten
    rw [if_neg (by omega), List.length_append, length_dnsQuery hid, List.length_replicate,
      List.length_singleton]
    omega
  | short hsize hlen => exact hlen

end

/-- The sizes of a DNS prefix whose last byte no write reaches. -/
def LastByteLeft (protocol : AmneziaImitationProtocol) (size : Nat) : Prop :=
  protocol = .dns ∧ (size = 1 ∨ size = 3 ∨ size = 5)

instance (protocol : AmneziaImitationProtocol) (size : Nat) :
    Decidable (LastByteLeft protocol size) :=
  inferInstanceAs (Decidable (_ ∧ _))

/-- What a filler has written of a slice: how much depends on the protocol and the size
alone. -/
structure Filled (protocol : AmneziaImitationProtocol) (size trailingSize : Nat)
    (written : Bytes) : Prop where
  length : written.length = if LastByteLeft protocol size then size - 1 else size
  dns : protocol = .dns → DnsFilled size (size + trailingSize) written

/-- No filler writes out of bounds, whatever the slice, the host and the words drawn. -/
theorem fillProtocolLike_yields {n : Nat} {rng : Rng} (protocol : AmneziaImitationProtocol)
    (domain : Option Bytes) (trailingSize : Nat) :
    Yields n [] rng (fillProtocolLike protocol domain trailingSize) fun _ known' _ =>
      Filled protocol n trailingSize known' := by
  have hwhole : ∀ {prog : Filler Unit}, protocol ≠ .dns → Yields n [] rng prog (Whole n) →
      Yields n [] rng prog fun _ known' _ => Filled protocol n trailingSize known' := by
    intro prog hne h
    refine h.mono fun _ known' _ hlen => ⟨?_, fun hdns => absurd hdns hne⟩
    rwa [if_neg fun hleft => hne hleft.1]
  cases protocol with
  | none | auto => exact hwhole nofun fillRandom_yields
  | dns =>
    refine (fillDns_yields trailingSize domain).mono fun _ known' _ hfilled => ⟨?_, fun _ => hfilled⟩
    simpa [LastByteLeft] using hfilled.length
  | quic => exact hwhole nofun fillQuicShort_yields
  | sip => exact hwhole nofun (fillSip_yields domain)
  | stun => exact hwhole nofun fillStun_yields

end BoringTun

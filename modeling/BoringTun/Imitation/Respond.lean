import BoringTun.Device.ReplyPolicy
import BoringTun.Imitation.Generate

/-!
What a probe is answered with (`imitation/dns.rs`, `imitation/stun.rs` and
`quic/version_negotiation.rs`): a failed resolution, a binding, or a list of versions.

All three echo bytes of the request. None of them is a probe itself
(`detect_servfail`, `detect_bindingSuccess`, `detect_versionNegotiation`).
-/

namespace BoringTun.Imitation

/-! ### Answers -/

/-- A failed resolution that echoes the question. -/
def servfail (query : Bytes) : Option Bytes :=
  (questionEnd query).map fun stop =>
    slice query 0 2 ++ [UInt8.ofNat (0x80 ||| (byteAt query 2 &&& (0x78 ||| 0x01))), 0x80 ||| 0x02] ++
      [0x00, 0x01] ++ [0x00, 0x00] ++ [0x00, 0x00] ++ [0x00, 0x00] ++ slice query DNS_HEADER_LEN stop

namespace Stun

def FP_ATTR_LEN : Nat := 4 + 4
def MAX_SOFTWARE_LEN : Nat := 127

/-- What a message has for a FINGERPRINT. -/
inductive Fingerprint where
  | absent | valid | invalid
  deriving DecidableEq

/-- The walk over the attributes; each takes four bytes at least, so that `fuel` above the
length of the message is never used up. -/
def walkAttributes (msg : Bytes) : Nat → Nat → Fingerprint
  | 0, _ => .absent
  | fuel + 1, off =>
    if msg.length < off + 4 then .absent
    else
      let attrType := beNat (slice msg off (off + 2))
      let attrLen := beNat (slice msg (off + 2) (off + 4))
      if attrType = 0x8028 then
        if attrLen ≠ 4 ∨ off + FP_ATTR_LEN ≠ msg.length then .invalid
        else if beNat (slice msg (off + 4) (off + 8)) =
            (crc32Ieee (msg.take off) ^^^ 0x5354554e).toNat then .valid
        else .invalid
      else
        let next := off + (padded attrLen + 4)
        if next ≤ msg.length then walkAttributes msg fuel next else .invalid

def checkFingerprint (msg : Bytes) : Fingerprint :=
  walkAttributes msg (msg.length + 1) STUN_HEADER_LEN

/-- The address a request came from, under the cookie and the transaction. -/
def xorMappedAddress (client : SocketAddr) (transId : Bytes) : Bytes :=
  let xPort := beBytes 2 (client.port ^^^ 0x2112).toNat
  match client with
  | .v4 addr _ => tlv 0x0020 ([0x00, 0x01] ++ xPort ++ beBytes 4 (addr ^^^ 0x2112a442).toNat)
  | .v6 addr _ _ _ => tlv 0x0020 ([0x00, 0x02] ++ xPort ++
      List.zipWith (· ^^^ ·) (beBytes 16 addr.toNat) (MAGIC_COOKIE ++ transId))

/-- The answer to a binding request; a request whose fingerprint is wrong gets none. -/
def bindingSuccess (request : Bytes) (client : SocketAddr) (software : Bytes) : Option Bytes :=
  match bindingRequestLen request, checkFingerprint request with
  | none, _ => none
  | some _, .invalid => none
  | some _, fingerprint =>
    if software.length > MAX_SOFTWARE_LEN then none
    else
      let transId := slice request 8 20
      let attrs := xorMappedAddress client transId ++ tlv 0x8022 software
      let attrsLen := attrs.length + if fingerprint = .valid then FP_ATTR_LEN else 0
      let msg := beBytes 2 0x0101 ++ beBytes 2 attrsLen ++ MAGIC_COOKIE ++ transId ++ attrs
      if fingerprint = .valid then
        some (msg ++ tlv 0x8028 (beBytes 4 (crc32Ieee msg ^^^ 0x5354554e).toNat))
      else some msg

end Stun

def MIN_INITIAL_DATAGRAM : Nat := 1200

/-- The versions a server speaks, for a client that offered none of them. The connection
identifiers change places. -/
def versionNegotiation (initial : Bytes) (rng : Rng) : Option (Bytes × Rng) :=
  if initial.length < MIN_INITIAL_DATAGRAM then none
  else
    match parseLongHeader initial with
    | none => none
    | some hdr =>
      if isSupportedByRealServers hdr.version then none
      else
        let (bits, rng) := rng.nextU32
        some ([UInt8.ofNat (0xc0 ||| (bits &&& 0x3f))] ++ beBytes 4 0 ++
          [UInt8.ofNat hdr.scid.length] ++ hdr.scid ++ [UInt8.ofNat hdr.dcid.length] ++ hdr.dcid ++
          REAL_SERVER_VERSIONS.flatMap (beBytes 4), rng)

/-! ### No answer is a probe -/

/-- What none of the four detectors takes is no probe. A STUN cookie keeps the DNS one out. -/
theorem detect_eq_none {data : Bytes} (hquic : parseLongHeader data = none)
    (hstun : bindingRequestLen data = none)
    (hdns : 8 ≤ data.length ∧ slice data 4 8 = MAGIC_COOKIE ∨ questionEnd data = none)
    (hsip : startsLikeSip data = false) : detect data = none := by
  unfold detect
  rw [hquic, hstun, hsip]
  rcases hdns with ⟨hlen, hcookie⟩ | hquestion
  · simp [hlen, hcookie]
  · simp [hquestion]

theorem parseLongHeader_of_version {data : Bytes}
    (h : isKnownVersion (beNat (slice data 1 5)) = false) : parseLongHeader data = none := by
  unfold parseLongHeader
  split
  · rfl
  · simp [h]

theorem parseLongHeader_of_form {data : Bytes} (h : byteAt data 0 &&& 0xc0 ≠ 0xc0) :
    parseLongHeader data = none := by
  unfold parseLongHeader
  rw [if_pos (.inr h)]

theorem bindingRequestLen_of_type {data : Bytes} (h : beNat (slice data 0 2) ≠ BINDING_REQUEST) :
    bindingRequestLen data = none := by
  simp [bindingRequestLen, h]

theorem bindingRequestLen_of_cookie {data : Bytes} (h : slice data 4 8 ≠ MAGIC_COOKIE) :
    bindingRequestLen data = none := by
  simp [bindingRequestLen, h]

/-- What a framed request is. -/
theorem bindingRequestLen_isSome {data : Bytes} : (bindingRequestLen data).isSome = true ↔
    (STUN_HEADER_LEN ≤ data.length ∧ data.length ≤ MAX_BINDING_REQUEST_LEN) ∧
      beNat (slice data 0 2) = BINDING_REQUEST ∧ slice data 4 8 = MAGIC_COOKIE ∧
      beNat (slice data 2 4) % 4 = 0 ∧ data.length = STUN_HEADER_LEN + beNat (slice data 2 4) := by
  unfold bindingRequestLen
  dsimp only
  split
  · next hbounds =>
    simp only [Option.isSome_none, Bool.false_eq_true, false_iff]
    omega
  next hbounds =>
  split
  · next htype => simp [htype]
  next htype =>
  split
  · next hcookie => simp [hcookie]
  next hcookie =>
  split
  · next hframed =>
    simp only [Option.isSome_none, Bool.false_eq_true, false_iff]
    omega
  · next hframed =>
    simp only [not_or, not_not, Nat.not_lt, gt_iff_lt] at *
    exact ⟨fun _ => ⟨hbounds, htype, hcookie, hframed⟩, fun _ => rfl⟩

theorem beNat_pair (high low : UInt8) : beNat [high, low] = 256 * high.toNat + low.toNat := by
  change low.toNat + 256 * (high.toNat + 256 * 0) = _
  omega

theorem questionEnd_eq_none {data : Bytes} (h : ∀ stop, ¬ IsQuery data stop) :
    questionEnd data = none := by
  cases hend : questionEnd data with
  | none => rfl
  | some stop => exact absurd (questionEnd_spec hend) (h stop)

/-- A method starts with three letters. -/
theorem letter_of_startsLikeSip {data : Bytes} (h : startsLikeSip data = true) {i : Nat}
    (hi : i < 3) : ∃ byte, data[i]? = some byte ∧ 65 ≤ toAsciiUpper byte ∧ toAsciiUpper byte ≤ 90 := by
  have hmethods : ∀ method ∈ SIP_PREFIXES, ∀ i < 3, ∃ letter, method[i]? = some letter ∧
      65 ≤ letter ∧ letter ≤ 90 := by
    decide
  unfold startsLikeSip at h
  obtain ⟨method, hmem, hhead⟩ := List.any_eq_true.mp h
  rw [decide_eq_true_eq] at hhead
  obtain ⟨letter, hletter, hlow, hhigh⟩ := hmethods method hmem i hi
  have hat : ((data.take 10).map toAsciiUpper)[i]? = some letter := by
    rw [← hhead, List.getElem?_take] at hletter
    split at hletter
    · exact hletter
    · cases hletter
  rw [List.getElem?_map, Option.map_eq_some_iff] at hat
  obtain ⟨byte, hbyte, rfl⟩ := hat
  rw [List.getElem?_take] at hbyte
  split at hbyte
  · exact ⟨byte, hbyte, hlow, hhigh⟩
  · cases hbyte

/-- A datagram with a byte among its first three that is no letter is not taken for SIP. -/
theorem startsLikeSip_eq_false {data : Bytes} {i : Nat} {byte : UInt8} (hi : i < 3)
    (hbyte : data[i]? = some byte) (h : ¬ (65 ≤ toAsciiUpper byte ∧ toAsciiUpper byte ≤ 90)) :
    startsLikeSip data = false := by
  refine Bool.eq_false_iff.mpr fun hsip => ?_
  obtain ⟨byte', hbyte', hletter⟩ := letter_of_startsLikeSip hsip hi
  rw [hbyte] at hbyte'
  cases hbyte'
  exact h hletter

/-- The flags of a query leave the recursion bit of the answer open, and no other. -/
theorem servfail_flags {query : Bytes} {stop : Nat} (h : questionEnd query = some stop) :
    UInt8.ofNat (0x80 ||| (byteAt query 2 &&& (0x78 ||| 0x01))) = 0x80 ∨
      UInt8.ofNat (0x80 ||| (byteAt query 2 &&& (0x78 ||| 0x01))) = 0x81 := by
  have hbyte : byteAt query 2 < 256 := (query.getD 2 0).toNat_lt
  have hall : ∀ n < 256, n &&& 0xf8 = 0 →
      UInt8.ofNat (0x80 ||| (n &&& (0x78 ||| 0x01))) = 0x80 ∨
        UInt8.ofNat (0x80 ||| (n &&& (0x78 ||| 0x01))) = 0x81 := by
    decide +kernel
  exact hall _ hbyte (questionEnd_spec h).flags

/-- The answer is the query up to the end of its question, with a header of its own. -/
theorem servfail_eq_some {query reply : Bytes} (h : servfail query = some reply) :
    reply.length ≤ query.length ∧ ∃ (i₀ i₁ flags : UInt8) (question : Bytes),
      (flags = 0x80 ∨ flags = 0x81) ∧
      reply = [i₀, i₁, flags, 0x82, 0x00, 0x01, 0x00, 0x00, 0x00, 0x00, 0x00, 0x00] ++ question := by
  obtain ⟨stop, hend, rfl⟩ := Option.map_eq_some_iff.mp h
  have hquery := questionEnd_spec hend
  have hheader := hquery.header
  have hroom := hquery.room
  simp only [DNS_HEADER_LEN] at *
  have hid : (slice query 0 2).length = 2 := length_slice (by omega)
  obtain ⟨i₀, i₁, hids⟩ := List.length_eq_two.mp hid
  have hquestion := @length_slice query 12 stop hroom
  refine ⟨?_, i₀, i₁, _, slice query 12 stop, servfail_flags hend, ?_⟩
  · simp only [List.length_append, hid, hquestion, List.length_cons, List.length_nil]
    omega
  · rw [hids]
    rfl

/-- A failed resolution is no query, and its flags are in the way of the other readings. -/
theorem detect_servfail {query reply : Bytes} (h : servfail query = some reply) :
    detect reply = none := by
  obtain ⟨-, i₀, i₁, flags, question, hflags, rfl⟩ := servfail_eq_some h
  refine detect_eq_none ?_ ?_ (.inr ?_) (startsLikeSip_eq_false (by decide : 2 < 3) rfl ?_)
  · -- no version has these flags for its second byte
    have hversions : ∀ n < 256, isKnownVersion (beNat [UInt8.ofNat n, flags, 0x82, 0x00]) = false := by
      rcases hflags with rfl | rfl <;> decide +kernel
    have hversion := hversions i₁.toNat i₁.toNat_lt
    rw [UInt8.ofNat_toNat] at hversion
    exact parseLongHeader_of_version hversion
  · exact bindingRequestLen_of_cookie (by simp [slice, MAGIC_COOKIE])
  · refine questionEnd_eq_none fun stop hquery => ?_
    have hqr : flags.toNat &&& 0xf8 = 0 := hquery.flags
    rcases hflags with rfl | rfl <;> exact absurd hqr (by decide)
  · rcases hflags with rfl | rfl <;> decide

namespace Stun

/-- The answer starts with its type, its length and the cookie. -/
theorem bindingSuccess_eq_some {request software reply : Bytes} {client : SocketAddr}
    (h : bindingSuccess request client software = some reply) : ∃ (l₀ l₁ : UInt8) (rest : Bytes),
      reply = [0x01, 0x01, l₀, l₁] ++ MAGIC_COOKIE ++ rest := by
  unfold bindingSuccess at h
  split at h
  · cases h
  · cases h
  · split at h
    · cases h
    · dsimp only at h
      split at h <;> cases h
      · exact ⟨_, _, _, rfl⟩
      · exact ⟨_, _, _, rfl⟩

/-- A success is no request, and its cookie keeps it from being read as a query. -/
theorem detect_bindingSuccess {request software reply : Bytes} {client : SocketAddr}
    (h : bindingSuccess request client software = some reply) : detect reply = none := by
  obtain ⟨l₀, l₁, rest, rfl⟩ := bindingSuccess_eq_some h
  refine detect_eq_none ?_ ?_ (.inl ⟨?_, rfl⟩) (startsLikeSip_eq_false (by decide : 0 < 3) rfl ?_)
  · exact parseLongHeader_of_form (show (1 : Nat) &&& 0xc0 ≠ 0xc0 by decide)
  · exact bindingRequestLen_of_type (show beNat [0x01, 0x01] ≠ BINDING_REQUEST by decide)
  · simp [MAGIC_COOKIE]
  · decide

end Stun

/-- Both connection identifiers had their lengths in a byte. -/
theorem parseLongHeader_length {data : Bytes} {hdr : LongHeader}
    (h : parseLongHeader data = some hdr) : hdr.dcid.length < 256 ∧ hdr.scid.length < 256 := by
  have hbyte : ∀ i, byteAt data i < 256 := fun i => (data.getD i 0).toNat_lt
  unfold parseLongHeader at h
  split at h
  · cases h
  · dsimp only at h
    split at h
    · cases h
    · split at h
      · cases h
      · split at h
        · cases h
        · split at h
          · cases h
          · split at h
            · cases h
            · next hend =>
              cases h
              have hdcid := hbyte 5
              have hscid := hbyte (6 + byteAt data 5)
              simp only [slice, List.length_take, List.length_drop]
              omega

/-- A list of versions has version 0, and holds two connection identifiers of the request. -/
theorem versionNegotiation_eq_some {initial reply : Bytes} {rng rng' : Rng}
    (h : versionNegotiation initial rng = some (reply, rng')) : reply.length ≤ initial.length ∧
      ∃ (first : UInt8) (scid dcid : Bytes), 0xc0 ≤ first ∧ scid.length < 256 ∧ dcid.length < 256 ∧
        reply = [first, 0x00, 0x00, 0x00, 0x00, UInt8.ofNat scid.length] ++
          (scid ++ (UInt8.ofNat dcid.length :: dcid ++
            [0x00, 0x00, 0x00, 0x01, 0x6b, 0x33, 0x43, 0xcf])) := by
  unfold versionNegotiation at h
  split at h
  · cases h
  next hlong =>
  cases hparse : parseLongHeader initial with
  | none =>
    rw [hparse] at h
    cases h
  | some hdr =>
    rw [hparse] at h
    dsimp only at h
    split at h
    · cases h
    · cases h
      obtain ⟨hdcid, hscid⟩ := parseLongHeader_length hparse
      simp only [MIN_INITIAL_DATAGRAM] at hlong
      refine ⟨?_, UInt8.ofNat (0xc0 ||| (rng.nextU32.1 &&& 0x3f)), hdr.scid, hdr.dcid, ?_, hscid,
        hdcid, ?_⟩
      · simp [REAL_SERVER_VERSIONS]
        omega
      · have hall : ∀ n < 64, 0xc0 ≤ UInt8.ofNat (0xc0 ||| n) := by decide
        exact hall _ (Nat.lt_succ_of_le Nat.and_le_right)
      · have hversions : REAL_SERVER_VERSIONS.flatMap (beBytes 4) =
            [0x00, 0x00, 0x00, 0x01, 0x6b, 0x33, 0x43, 0xcf] := by
          decide
        rw [hversions]
        simp [beBytes, leBytes]

/-- Version 0 is none a client offers. Read as a query, the two bytes of a version that stand
where the name starts are no label. -/
theorem detect_versionNegotiation {initial reply : Bytes} {rng rng' : Rng}
    (h : versionNegotiation initial rng = some (reply, rng')) : detect reply = none := by
  obtain ⟨-, first, scid, dcid, hfirst, hscid, hdcid, rfl⟩ := versionNegotiation_eq_some h
  refine detect_eq_none ?_ ?_ (.inr ?_) (startsLikeSip_eq_false (by decide : 0 < 3) rfl ?_)
  · exact parseLongHeader_of_version (show isKnownVersion (beNat [0, 0, 0, 0]) = false by decide)
  · refine bindingRequestLen_of_type ?_
    change beNat [first, 0x00] ≠ 1
    have hle : 0xc0 ≤ first.toNat := UInt8.le_iff_toNat_le.mp hfirst
    rw [beNat_pair]
    omega
  · refine questionEnd_eq_none fun stop hquery => ?_
    -- one question, and no answers, ask for a client identifier that is one zero byte
    have hquestions : beNat [0x00, UInt8.ofNat scid.length] = 1 := hquery.questions
    rw [beNat_pair, UInt8.toNat_ofNat', Nat.mod_eq_of_lt hscid] at hquestions
    change 256 * 0 + scid.length = 1 at hquestions
    obtain ⟨s, rfl⟩ := List.length_eq_one_iff.mp (show scid.length = 1 by omega)
    have hanswers : beNat [s, UInt8.ofNat dcid.length] = 0 := hquery.answers
    rw [beNat_pair, UInt8.toNat_ofNat', Nat.mod_eq_of_lt hdcid] at hanswers
    obtain rfl := List.eq_nil_of_length_eq_zero (show dcid.length = 0 by omega)
    obtain ⟨nameEnd, hname, -⟩ := hquery.name
    have hlabel : qnameEnd ([first, 0x00, 0x00, 0x00, 0x00, 0x01, s, 0x00, 0x00, 0x00, 0x00, 0x01, 0x6b,
        0x33, 0x43, 0xcf]) 17 DNS_HEADER_LEN 0 = none := by
      simp [qnameEnd, byteAt, DNS_HEADER_LEN]
    have hsome := hlabel.symm.trans hname
    cases hsome
  · rintro ⟨-, hhigh⟩
    have hkept : toAsciiUpper first = first := if_neg fun hlower =>
      absurd (UInt8.le_trans hfirst hlower.2) (by decide)
    rw [hkept] at hhigh
    exact absurd (UInt8.le_trans hfirst hhigh) (by decide)

end BoringTun.Imitation

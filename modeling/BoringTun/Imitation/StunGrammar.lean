import BoringTun.Imitation.Respond
import BoringTun.Lib.Wire

/-!
STUN messages as attributes that tile them, and the parser, the responder and the generator of
`noise/imitation/stun.rs` against them.

A walk over attributes is one over the list they encode (`walkAttributes_encode`), and a message
that does not decode has an invalid fingerprint (`exists_attributes`).
-/

namespace BoringTun.Imitation.Stun

/-! ### Messages -/

/-- A type, a value of which the length is sent, and as many bytes of any kind as it takes to
fill a word. -/
structure Attribute where
  type : UInt16
  value : Bytes
  padding : Bytes
  short : value.length < 2 ^ 16
  aligned : value.length + padding.length = padded value.length

def Attribute.encode (attr : Attribute) : Bytes :=
  beBytes 2 attr.type.toNat ++ beBytes 2 attr.value.length ++ attr.value ++ attr.padding

def encodeAttributes (attrs : List Attribute) : Bytes := attrs.flatMap Attribute.encode

/-- The header of a message that declares `len` bytes of attributes. -/
def preamble (type : Nat) (transId : Bytes) (len : Nat) : Bytes :=
  beBytes 2 type ++ beBytes 2 len ++ MAGIC_COOKIE ++ transId

/-- A message whose length is that of its attributes. -/
def message (type : Nat) (transId : Bytes) (attrs : List Attribute) : Bytes :=
  preamble type transId (encodeAttributes attrs).length ++ encodeAttributes attrs

def FINGERPRINT : UInt16 := 0x8028

/-- Whatever attribute is a fingerprint is the last one and has four bytes, the checksum of the
message before it. -/
def Fingerprinted (type : Nat) (transId : Bytes) (attrs : List Attribute) : Prop :=
  ∀ before attr after, attrs = before ++ attr :: after → attr.type = FINGERPRINT →
    after = [] ∧ attr.value.length = 4 ∧
    beNat attr.value = (crc32Ieee (preamble type transId (encodeAttributes attrs).length ++
      encodeAttributes before) ^^^ 0x5354554e).toNat

/-! ### Lengths -/

theorem padded_mod (len : Nat) : padded len % 4 = 0 := by
  simp [padded]

theorem length_attribute (attr : Attribute) :
    attr.encode.length = padded attr.value.length + 4 := by
  have haligned := attr.aligned
  simp only [Attribute.encode, List.length_append, length_beBytes]
  omega

theorem encodeAttributes_cons (attr : Attribute) (attrs : List Attribute) :
    encodeAttributes (attr :: attrs) = attr.encode ++ encodeAttributes attrs := rfl

theorem length_encodeAttributes_cons (attr : Attribute) (attrs : List Attribute) :
    (encodeAttributes (attr :: attrs)).length =
      padded attr.value.length + 4 + (encodeAttributes attrs).length := by
  rw [encodeAttributes_cons, List.length_append, length_attribute]

theorem length_encodeAttributes_mod (attrs : List Attribute) :
    (encodeAttributes attrs).length % 4 = 0 := by
  induction attrs with
  | nil => rfl
  | cons attr attrs ih =>
    have hpadded := padded_mod attr.value.length
    rw [length_encodeAttributes_cons]
    omega

theorem length_le_encodeAttributes (attrs : List Attribute) :
    attrs.length ≤ (encodeAttributes attrs).length := by
  induction attrs with
  | nil => exact Nat.le_refl 0
  | cons attr attrs ih =>
    rw [length_encodeAttributes_cons, List.length_cons]
    omega

theorem length_preamble (type len : Nat) {transId : Bytes} (h : transId.length = 12) :
    (preamble type transId len).length = STUN_HEADER_LEN := by
  simp [preamble, MAGIC_COOKIE, STUN_HEADER_LEN, h]

theorem length_message (type : Nat) {transId : Bytes} (h : transId.length = 12)
    (attrs : List Attribute) :
    (message type transId attrs).length = STUN_HEADER_LEN + (encodeAttributes attrs).length := by
  rw [message, List.length_append, length_preamble _ _ h]

theorem drop_message (type : Nat) {transId : Bytes} (h : transId.length = 12)
    (attrs : List Attribute) :
    (message type transId attrs).drop STUN_HEADER_LEN = encodeAttributes attrs :=
  List.drop_left' (length_preamble _ _ h)

/-! ### The walk over attributes -/

/-- The verdict on the attributes of a message, of which those from an offset on are given. -/
def fingerprintOf (msg : Bytes) : Nat → List Attribute → Fingerprint
  | _, [] => .absent
  | off, attr :: attrs =>
    if attr.type = FINGERPRINT then
      if attrs = [] ∧ attr.value.length = 4 ∧
          beNat attr.value = (crc32Ieee (msg.take off) ^^^ 0x5354554e).toNat then .valid
      else .invalid
    else fingerprintOf msg (off + attr.encode.length) attrs

section Walk

variable {msg : Bytes} {off : Nat} {attr : Attribute} {rest : Bytes}

/-- What the walk reads where an attribute starts. -/
theorem walk_reads (h : msg.drop off = attr.encode ++ rest) :
    off + (padded attr.value.length + 4) + rest.length = msg.length ∧
      beNat (slice msg off (off + 2)) = attr.type.toNat ∧
      beNat (slice msg (off + 2) (off + 4)) = attr.value.length ∧
      (attr.value.length = 4 → slice msg (off + 4) (off + 8) = attr.value) := by
  have hlength := congrArg List.length h
  rw [List.length_drop, List.length_append, length_attribute] at hlength
  refine ⟨by omega, ?_, ?_, ?_⟩
  · have hslice := slice_drop msg off 0 2
    rw [Nat.add_zero] at hslice
    rw [hslice, h, Attribute.encode]
    simp only [List.append_assoc]
    rw [slice, List.drop_zero, List.take_left' (length_beBytes _ _)]
    exact beNat_beBytes attr.type.toNat_lt
  · rw [slice_drop, h, Attribute.encode]
    simp only [List.append_assoc]
    rw [slice_between _ _ _ (length_beBytes 2 _) (length_beBytes 2 _)]
    exact beNat_beBytes attr.short
  · intro hfour
    rw [slice_drop, h, Attribute.encode, List.append_assoc, List.append_assoc]
    exact slice_between _ _ _ (by simp) (by omega)

end Walk

/-- Over attributes that tile the rest of a message the walk comes to its verdict on them. -/
theorem walkAttributes_encode {msg : Bytes} {attrs : List Attribute} {fuel off : Nat}
    (h : msg.drop off = encodeAttributes attrs) (hoff : off ≤ msg.length)
    (hfuel : attrs.length < fuel) : walkAttributes msg fuel off = fingerprintOf msg off attrs := by
  induction attrs generalizing fuel off with
  | nil =>
    obtain ⟨fuel, rfl⟩ := Nat.exists_eq_add_one_of_ne_zero (Nat.ne_of_gt hfuel)
    have hend : msg.length ≤ off := List.drop_eq_nil_iff.mp h
    rw [walkAttributes, if_pos (by omega)]
    rfl
  | cons attr attrs ih =>
    obtain ⟨fuel, rfl⟩ := Nat.exists_eq_add_one_of_ne_zero (Nat.ne_of_gt (Nat.zero_lt_of_lt hfuel))
    rw [encodeAttributes_cons] at h
    obtain ⟨hlength, htype, hlen, hvalue⟩ := walk_reads h
    have hmore : attrs = [] ↔ (encodeAttributes attrs).length = 0 := by
      constructor
      · rintro rfl
        rfl
      · intro hzero
        have hle := length_le_encodeAttributes attrs
        exact List.eq_nil_of_length_eq_zero (by omega)
    have hkind : attr.type.toNat = 0x8028 ↔ attr.type = FINGERPRINT := by
      rw [← UInt16.toNat_inj]
      rfl
    rw [walkAttributes, if_neg (by omega), fingerprintOf]
    rw [htype, hlen]
    by_cases hprint : attr.type = FINGERPRINT
    · rw [if_pos (hkind.mpr hprint), if_pos hprint]
      by_cases hfour : attr.value.length = 4
      · rw [hfour] at hlength
        change off + (4 + 4) + _ = _ at hlength
        simp only [FP_ATTR_LEN]
        grind
      · rw [if_pos (.inl hfour), if_neg (fun hall => hfour hall.2.1)]
    · rw [if_neg (fun heq => hprint (hkind.mp heq)), if_neg hprint, if_pos (by omega),
        ← length_attribute]
      refine ih (drop_of_drop h) ?_ (by rw [List.length_cons] at hfuel; omega)
      rw [length_attribute]
      omega

theorem le_padded (len : Nat) : len ≤ padded len := by
  simp only [padded]
  omega

/-- Bytes that hold the value they announce start with an attribute. -/
theorem exists_attribute {bs : Bytes} (h : padded (beNat (slice bs 2 4)) + 4 ≤ bs.length) :
    ∃ (attr : Attribute) (rest : Bytes), bs = attr.encode ++ rest := by
  have hle := le_padded (beNat (slice bs 2 4))
  have htwo : (slice bs 0 2).length = 2 := length_slice (by omega)
  have hfour : (slice bs 2 4).length = 2 := length_slice (by omega)
  have htype := beBytes_beNat (slice bs 0 2)
  have hlen := beBytes_beNat (slice bs 2 4)
  have hshort := beNat_lt (slice bs 2 4)
  have htypeLt := beNat_lt (slice bs 0 2)
  rw [htwo] at htype htypeLt
  rw [hfour] at hlen hshort
  -- the value, and what fills its last word
  generalize beNat (slice bs 2 4) = len at *
  have hvalue : (slice bs 4 (4 + len)).length = len := by
    rw [length_slice (by omega)]
    omega
  have hpadding : (slice bs (4 + len) (4 + padded len)).length = padded len - len := by
    rw [length_slice (by omega)]
    omega
  let attr : Attribute := {
    type := UInt16.ofNat (beNat (slice bs 0 2))
    value := slice bs 4 (4 + len)
    padding := slice bs (4 + len) (4 + padded len)
    short := by rw [hvalue]; exact hshort
    aligned := by rw [hvalue, hpadding]; omega }
  refine ⟨attr, bs.drop (4 + padded len), ?_⟩
  have hencode : attr.encode = slice bs 0 2 ++ slice bs 2 4 ++ slice bs 4 (4 + len) ++
      slice bs (4 + len) (4 + padded len) := by
    rw [Attribute.encode]
    rw [UInt16.toNat_ofNat_of_lt' htypeLt, htype, hvalue, hlen]
  rw [hencode, slice_append_slice _ (by omega) (by omega),
    slice_append_slice _ (by omega) (by omega), slice_append_slice _ (by omega) (by omega)]
  exact (List.take_append_drop _ _).symm

/-- A walk that does not end in a complaint has passed attributes only. -/
theorem exists_attributes {msg : Bytes} {fuel off : Nat}
    (h : walkAttributes msg fuel off ≠ .invalid) (hoff : off ≤ msg.length)
    (hmod : (msg.length - off) % 4 = 0) (hfuel : msg.length - off < fuel) :
    ∃ attrs, msg.drop off = encodeAttributes attrs := by
  induction fuel generalizing off with
  | zero => exact absurd hfuel (Nat.not_lt_zero _)
  | succ fuel ih =>
    rw [walkAttributes] at h
    by_cases hend : msg.length < off + 4
    · exact ⟨[], List.drop_eq_nil_of_le (by omega)⟩
    rw [if_neg hend] at h
    dsimp only at h
    have hslice := slice_drop msg off 2 4
    rw [hslice] at h
    by_cases hroom : padded (beNat (slice (msg.drop off) 2 4)) + 4 ≤ (msg.drop off).length
    · obtain ⟨attr, rest, hdrop⟩ := exists_attribute hroom
      obtain ⟨hlength, htype, hlen, -⟩ := walk_reads hdrop
      rw [hslice] at hlen
      rw [hlen] at h
      split at h
      · split at h
        · exact absurd rfl h
        · next hlast =>
          simp only [not_or, not_not] at hlast
          rw [hlast.1] at hlength
          change off + (4 + 4) + _ = _ at hlength
          simp only [FP_ATTR_LEN] at hlast
          obtain rfl := List.eq_nil_of_length_eq_zero (show rest.length = 0 by omega)
          exact ⟨[attr], by rw [hdrop]; rfl⟩
      · rw [if_pos (by omega)] at h
        have hpadded := padded_mod attr.value.length
        obtain ⟨attrs, hattrs⟩ := ih h (by omega) (by omega) (by omega)
        rw [← length_attribute, drop_of_drop hdrop] at hattrs
        exact ⟨attr :: attrs, by rw [hdrop, hattrs]; rfl⟩
    · rw [List.length_drop] at hroom
      split at h
      · rw [if_pos] at h
        · exact absurd rfl h
        · by_cases hfour : beNat (slice (msg.drop off) 2 4) = 4
          · rw [hfour] at hroom
            change ¬ 4 + 4 ≤ _ at hroom
            simp only [FP_ATTR_LEN]
            omega
          · exact .inl hfour
      · rw [if_neg (by omega)] at h
        exact absurd rfl h

/-! ### The verdict on a message -/

theorem fingerprintOf_eq_absent {msg : Bytes} {attrs : List Attribute} {off : Nat} :
    fingerprintOf msg off attrs = .absent ↔ ∀ attr ∈ attrs, attr.type ≠ FINGERPRINT := by
  induction attrs generalizing off with
  | nil => simp [fingerprintOf]
  | cons attr attrs ih =>
    rw [fingerprintOf, List.forall_mem_cons]
    by_cases hprint : attr.type = FINGERPRINT
    · rw [if_pos hprint]
      split <;> simp [hprint]
    · rw [if_neg hprint, ih]
      simp [hprint]

theorem fingerprintOf_ne_invalid {msg : Bytes} {attrs : List Attribute} {off : Nat} :
    fingerprintOf msg off attrs ≠ .invalid ↔
      ∀ before attr after, attrs = before ++ attr :: after → attr.type = FINGERPRINT →
        after = [] ∧ attr.value.length = 4 ∧ beNat attr.value =
          (crc32Ieee (msg.take (off + (encodeAttributes before).length)) ^^^ 0x5354554e).toNat := by
  induction attrs generalizing off with
  | nil => simp [fingerprintOf]
  | cons first attrs ih =>
    rw [fingerprintOf]
    by_cases hprint : first.type = FINGERPRINT
    · rw [if_pos hprint]
      constructor
      · intro h before attr after hattrs _
        split at h
        · next hlast =>
          obtain ⟨rfl, hfour, hcrc⟩ := hlast
          obtain ⟨rfl, rfl, rfl⟩ : before = [] ∧ attr = first ∧ after = [] := by
            simpa [List.cons_eq_append_iff] using hattrs
          exact ⟨rfl, hfour, hcrc⟩
        · exact absurd rfl h
      · intro h
        have hlast := h [] first attrs rfl hprint
        rw [show (encodeAttributes []).length = 0 from rfl, Nat.add_zero] at hlast
        rw [if_pos hlast]
        nofun
    · rw [if_neg hprint, ih]
      constructor
      · intro h before attr after hattrs hattr
        cases before with
        | nil => exact absurd ((List.cons.inj hattrs).1 ▸ hattr) hprint
        | cons b before =>
          obtain ⟨rfl, htail⟩ := List.cons.inj hattrs
          have hrest := h before attr after htail hattr
          rwa [Nat.add_assoc, ← List.length_append] at hrest
      · intro h before attr after hattrs hattr
        have hwhole := h (first :: before) attr after (congrArg _ hattrs) hattr
        rwa [encodeAttributes_cons, List.length_append, ← Nat.add_assoc] at hwhole

theorem encodeAttributes_append (before after : List Attribute) :
    encodeAttributes (before ++ after) = encodeAttributes before ++ encodeAttributes after :=
  List.flatMap_append

theorem encodeAttributes_singleton (attr : Attribute) : encodeAttributes [attr] = attr.encode :=
  List.append_nil _

section Message

variable {type : Nat} {transId : Bytes} {attrs : List Attribute}

theorem checkFingerprint_message (h : transId.length = 12) :
    checkFingerprint (message type transId attrs) =
      fingerprintOf (message type transId attrs) STUN_HEADER_LEN attrs := by
  have hlength := length_message type h attrs
  have hle := length_le_encodeAttributes attrs
  exact walkAttributes_encode (drop_message type h attrs) (by omega) (by omega)

theorem fingerprinted_iff (h : transId.length = 12) :
    Fingerprinted type transId attrs ↔
      checkFingerprint (message type transId attrs) ≠ .invalid := by
  rw [checkFingerprint_message h, fingerprintOf_ne_invalid]
  refine forall_congr' fun before => forall_congr' fun attr => forall_congr' fun after =>
    forall_congr' fun hattrs => ?_
  have htake : (message type transId attrs).take
      (STUN_HEADER_LEN + (encodeAttributes before).length) =
        preamble type transId (encodeAttributes attrs).length ++ encodeAttributes before := by
    have hsplit : encodeAttributes attrs =
        encodeAttributes before ++ encodeAttributes (attr :: after) := by
      rw [hattrs, encodeAttributes_append]
    rw [message]
    nth_rewrite 2 [hsplit]
    rw [← List.append_assoc]
    exact List.take_left' (by rw [List.length_append, length_preamble _ _ h])
  rw [htake]

/-- A message with a fingerprint is valid if it is as it should be. -/
theorem checkFingerprint_eq_valid (h : transId.length = 12) :
    checkFingerprint (message type transId attrs) = .valid ↔
      Fingerprinted type transId attrs ∧ ∃ attr ∈ attrs, attr.type = FINGERPRINT := by
  have habsent := @fingerprintOf_eq_absent (message type transId attrs) attrs STUN_HEADER_LEN
  rw [← checkFingerprint_message h] at habsent
  rw [fingerprinted_iff h]
  cases hprint : checkFingerprint (message type transId attrs) with
  | absent =>
    have hnone := habsent.mp hprint
    simp only [reduceCtorEq, false_iff, not_and, not_exists]
    exact fun _ attr hmem => hnone attr hmem
  | valid =>
    have hsome := mt habsent.mpr (by rw [hprint]; nofun)
    push Not at hsome
    simp [hsome]
  | invalid => simp

theorem isSome_bindingRequestLen_message (h : transId.length = 12)
    (hlen : (message BINDING_REQUEST transId attrs).length ≤ MAX_BINDING_REQUEST_LEN) :
    (bindingRequestLen (message BINDING_REQUEST transId attrs)).isSome = true := by
  have hlength := length_message BINDING_REQUEST h attrs
  have hmod := length_encodeAttributes_mod attrs
  have hdeclared : beNat (slice (message BINDING_REQUEST transId attrs) 2 4) =
      (encodeAttributes attrs).length := by
    change beNat (beBytes 2 _) = _
    refine beNat_beBytes ?_
    simp only [MAX_BINDING_REQUEST_LEN, STUN_HEADER_LEN] at hlen hlength
    omega
  refine bindingRequestLen_isSome.mpr ⟨⟨by omega, hlen⟩, rfl, rfl, ?_, ?_⟩
  · rw [hdeclared, hmod]
  · rw [hdeclared, hlength]

end Message

/-- A framed request is a message if its attributes tile it. -/
theorem eq_message {request : Bytes} {attrs : List Attribute}
    (h : (bindingRequestLen request).isSome = true)
    (hattrs : request.drop STUN_HEADER_LEN = encodeAttributes attrs) :
    (slice request 8 20).length = 12 ∧ request.length ≤ MAX_BINDING_REQUEST_LEN ∧
      request = message BINDING_REQUEST (slice request 8 20) attrs := by
  obtain ⟨hbounds, htype, hcookie, hframed⟩ := bindingRequestLen_isSome.mp h
  simp only [STUN_HEADER_LEN, MAX_BINDING_REQUEST_LEN] at *
  have hid : (slice request 8 20).length = 12 := length_slice hbounds.1
  have hfirst := beBytes_beNat (slice request 0 2)
  have hsecond := beBytes_beNat (slice request 2 4)
  rw [length_slice (by omega)] at hfirst hsecond
  have hlength : (encodeAttributes attrs).length = beNat (slice request 2 4) := by
    rw [← hattrs, List.length_drop]
    omega
  refine ⟨hid, hbounds.2, ?_⟩
  rw [message, preamble, hlength, ← htype, hfirst, hsecond, ← hcookie, ← hattrs,
    slice_append_slice _ (by omega) (by omega), slice_append_slice _ (by omega) (by omega),
    slice_append_slice _ (by omega) (by omega)]
  exact (List.take_append_drop 20 request).symm

/-- What the responder looks at before it answers. -/
theorem answerable_iff {request : Bytes} :
    (bindingRequestLen request).isSome = true ∧ checkFingerprint request ≠ .invalid ↔
      ∃ (transId : Bytes) (attrs : List Attribute), transId.length = 12 ∧
        request.length ≤ MAX_BINDING_REQUEST_LEN ∧
        request = message BINDING_REQUEST transId attrs ∧
        Fingerprinted BINDING_REQUEST transId attrs := by
  constructor
  · rintro ⟨hlen, hprint⟩
    obtain ⟨hbounds, -, -, hmod, hlength⟩ := bindingRequestLen_isSome.mp hlen
    obtain ⟨attrs, hattrs⟩ := exists_attributes hprint hbounds.1 (by omega) (by omega)
    obtain ⟨hid, hle, hmsg⟩ := eq_message hlen hattrs
    refine ⟨_, attrs, hid, hle, hmsg, (fingerprinted_iff hid).mpr ?_⟩
    rwa [← hmsg]
  · rintro ⟨transId, attrs, hid, hle, rfl, hprint⟩
    exact ⟨isSome_bindingRequestLen_message hid hle, (fingerprinted_iff hid).mp hprint⟩

/-! ### Attributes that the program writes -/

/-- The padding is of zeros. -/
def Attribute.ofValue (type : UInt16) (value : Bytes) (h : value.length < 2 ^ 16) : Attribute where
  type := type
  value := value
  padding := List.replicate (padded value.length - value.length) 0
  short := h
  aligned := by
    rw [List.length_replicate]
    have hle := le_padded value.length
    omega

theorem encode_ofValue (type : UInt16) (value : Bytes) (h : value.length < 2 ^ 16) :
    (Attribute.ofValue type value h).encode = tlv type.toNat value := rfl

/-- The fingerprint of a message whose declared length counts it. -/
def fingerprint (msg : Bytes) : Attribute :=
  .ofValue FINGERPRINT (beBytes 4 (crc32Ieee msg ^^^ 0x5354554e).toNat) (by simp)

/-- Attributes without a fingerprint, under a header that counts one, may be given it. -/
theorem message_fingerprint (type : Nat) {transId : Bytes} (h : transId.length = 12)
    {attrs : List Attribute} (hnone : ∀ attr ∈ attrs, attr.type ≠ FINGERPRINT) {msg : Bytes}
    (hmsg : msg = preamble type transId ((encodeAttributes attrs).length + 8) ++
      encodeAttributes attrs) :
    msg ++ tlv 0x8028 (beBytes 4 (crc32Ieee msg ^^^ 0x5354554e).toNat) =
        message type transId (attrs ++ [fingerprint msg]) ∧
      checkFingerprint (message type transId (attrs ++ [fingerprint msg])) = .valid := by
  have hlast : encodeAttributes (attrs ++ [fingerprint msg]) = encodeAttributes attrs ++
      tlv 0x8028 (beBytes 4 (crc32Ieee msg ^^^ 0x5354554e).toNat) := by
    rw [encodeAttributes_append, encodeAttributes_singleton, fingerprint, encode_ofValue]
    rfl
  have hlength : (encodeAttributes (attrs ++ [fingerprint msg])).length =
      (encodeAttributes attrs).length + 8 := by
    rw [hlast, List.length_append]
    simp [tlv, padded]
  refine ⟨?_, (checkFingerprint_eq_valid h).mpr ⟨?_, fingerprint msg, by simp, rfl⟩⟩
  · rw [message, hlength, hlast, ← List.append_assoc, ← hmsg]
  · intro before attr after hattrs hattr
    -- none of the attributes before it is one, so it is the last
    obtain ⟨rfl, rfl, rfl⟩ : before = attrs ∧ attr = fingerprint msg ∧ after = [] := by
      rcases List.append_eq_append_iff.mp hattrs with ⟨more, rfl, hmore⟩ | ⟨more, rfl, hmore⟩
      · simpa [List.cons_eq_append_iff] using hmore
      · cases more with
        | nil => simpa using hmore
        | cons first more =>
          obtain ⟨rfl, -⟩ := List.cons.inj hmore
          exact absurd hattr (hnone attr (by simp))
    refine ⟨rfl, length_beBytes _ _, ?_⟩
    rw [hlength, ← hmsg]
    exact beNat_beBytes (UInt32.toNat_lt _)

/-! ### The responder -/

def BINDING_SUCCESS : Nat := 0x0101
def XOR_MAPPED_ADDRESS : UInt16 := 0x0020
def SOFTWARE : UInt16 := 0x8022

/-- How a client reads the address it is told (RFC 5389 §15.2). -/
def decodeMapped (transId : Bytes) : Bytes → Option (IpAddr × UInt16)
  | 0 :: family :: p₀ :: p₁ :: addr =>
    let port := UInt16.ofNat (beNat [p₀, p₁]) ^^^ 0x2112
    if family = 1 ∧ addr.length = 4 then
      some (.v4 (UInt32.ofNat (beNat addr) ^^^ 0x2112a442), port)
    else if family = 2 ∧ addr.length = 16 then
      some (.v6 (BitVec.ofNat 128
        (beNat (List.zipWith (· ^^^ ·) addr (MAGIC_COOKIE ++ transId)))), port)
    else none
  | _ => none

theorem decodeMapped_append (transId : Bytes) (family : UInt8) (port : Nat) (addr : Bytes) :
    decodeMapped transId ([0x00, family] ++ beBytes 2 port ++ addr) =
      if family = 1 ∧ addr.length = 4 then
        some (.v4 (UInt32.ofNat (beNat addr) ^^^ 0x2112a442),
          UInt16.ofNat (beNat (beBytes 2 port)) ^^^ 0x2112)
      else if family = 2 ∧ addr.length = 16 then
        some (.v6 (BitVec.ofNat 128
          (beNat (List.zipWith (· ^^^ ·) addr (MAGIC_COOKIE ++ transId)))),
          UInt16.ofNat (beNat (beBytes 2 port)) ^^^ 0x2112)
      else none := rfl

theorem zipWith_xor_cancel {xs key : Bytes} (h : xs.length = key.length) :
    List.zipWith (· ^^^ ·) (List.zipWith (· ^^^ ·) xs key) key = xs := by
  apply List.ext_getElem
  · simp [h]
  · intro i h₁ h₂
    simp only [List.getElem_zipWith, UInt8.xor_assoc, UInt8.xor_self, UInt8.xor_zero]

theorem decode_port (port : UInt16) :
    UInt16.ofNat (beNat (beBytes 2 (port ^^^ 0x2112).toNat)) ^^^ 0x2112 = port := by
  rw [beNat_beBytes (UInt16.toNat_lt _), UInt16.ofNat_toNat, UInt16.xor_assoc, UInt16.xor_self,
    UInt16.xor_zero]

/-- The address attribute is one from which the client reads its address. -/
theorem exists_mapped (client : SocketAddr) {transId : Bytes} (h : transId.length = 12) :
    ∃ attr : Attribute, attr.type = XOR_MAPPED_ADDRESS ∧
      attr.encode = xorMappedAddress client transId ∧
      decodeMapped transId attr.value = some (client.ip, client.port) := by
  cases client with
  | v4 addr port =>
    refine ⟨.ofValue XOR_MAPPED_ADDRESS ([0x00, 0x01] ++ beBytes 2 (port ^^^ 0x2112).toNat ++
      beBytes 4 (addr ^^^ 0x2112a442).toNat) (by simp), rfl, rfl, ?_⟩
    have haddr : UInt32.ofNat (beNat (beBytes 4 (addr ^^^ 0x2112a442).toNat)) ^^^ 0x2112a442 = addr := by
      rw [beNat_beBytes (UInt32.toNat_lt _), UInt32.ofNat_toNat, UInt32.xor_assoc, UInt32.xor_self,
        UInt32.xor_zero]
    refine (decodeMapped_append transId 0x01 _ _).trans ?_
    rw [if_pos ⟨rfl, length_beBytes 4 _⟩, haddr, decode_port]
    rfl
  | v6 addr port flowinfo scopeId =>
    have hkey : (beBytes 16 addr.toNat).length = (MAGIC_COOKIE ++ transId).length := by
      simp [MAGIC_COOKIE, h]
    refine ⟨.ofValue XOR_MAPPED_ADDRESS ([0x00, 0x02] ++ beBytes 2 (port ^^^ 0x2112).toNat ++
      List.zipWith (· ^^^ ·) (beBytes 16 addr.toNat) (MAGIC_COOKIE ++ transId))
        (by simp [MAGIC_COOKIE, h]), rfl, rfl, ?_⟩
    have haddr : BitVec.ofNat 128 (beNat (List.zipWith (· ^^^ ·)
        (List.zipWith (· ^^^ ·) (beBytes 16 addr.toNat) (MAGIC_COOKIE ++ transId))
          (MAGIC_COOKIE ++ transId))) = addr := by
      rw [zipWith_xor_cancel hkey, beNat_beBytes addr.isLt, BitVec.ofNat_toNat, BitVec.setWidth_eq]
    refine (decodeMapped_append transId 0x02 _ _).trans ?_
    have hlength : (List.zipWith (· ^^^ ·) (beBytes 16 addr.toNat)
        (MAGIC_COOKIE ++ transId)).length = 16 := by
      rw [List.length_zipWith, ← hkey, length_beBytes, Nat.min_self]
    rw [if_neg (fun h => absurd h.1 (by decide)), if_pos ⟨rfl, hlength⟩, haddr, decode_port]
    rfl

theorem slice_message (type : Nat) {transId : Bytes} (h : transId.length = 12)
    (attrs : List Attribute) : slice (message type transId attrs) 8 20 = transId := by
  rw [message, preamble, List.append_assoc]
  exact slice_between _ _ _ (by simp [MAGIC_COOKIE]) h

section Responder

variable {request transId software : Bytes} {client : SocketAddr}

/-- An answer without its fingerprint, of which it may declare the length. -/
def unsealed (client : SocketAddr) (transId software : Bytes) (len : Nat) : Bytes :=
  preamble BINDING_SUCCESS transId
      ((xorMappedAddress client transId ++ tlv 0x8022 software).length + len) ++
    (xorMappedAddress client transId ++ tlv 0x8022 software)

/-- What the responder answers, and when. -/
theorem bindingSuccess_eq (hsoftware : software.length ≤ MAX_SOFTWARE_LEN) :
    bindingSuccess request client software =
      if (bindingRequestLen request).isSome = true ∧ checkFingerprint request ≠ .invalid then
        if checkFingerprint request = .valid then
          some (unsealed client (slice request 8 20) software FP_ATTR_LEN ++
            tlv 0x8028 (beBytes 4 (crc32Ieee (unsealed client (slice request 8 20) software
              FP_ATTR_LEN) ^^^ 0x5354554e).toNat))
        else some (unsealed client (slice request 8 20) software 0)
      else none := by
  unfold bindingSuccess
  cases bindingRequestLen request with
  | none => simp
  | some len =>
    cases checkFingerprint request with
    | invalid => simp
    | absent =>
      rw [if_pos (by simp), if_neg (by simp)]
      dsimp only
      rw [if_neg (Nat.not_lt.mpr hsoftware), if_neg (by simp), if_neg (by simp)]
      rfl
    | valid =>
      rw [if_pos (by simp), if_pos rfl]
      dsimp only
      rw [if_neg (Nat.not_lt.mpr hsoftware), if_pos rfl, if_pos rfl]
      rfl

theorem bindingSuccess_isSome (hsoftware : software.length ≤ MAX_SOFTWARE_LEN) :
    (bindingSuccess request client software).isSome = true ↔
      (bindingRequestLen request).isSome = true ∧ checkFingerprint request ≠ .invalid := by
  rw [bindingSuccess_eq hsoftware]
  split
  · next h => split <;> simp [h]
  · next h => simpa using h

/-- The attributes of an answer, before its fingerprint. -/
theorem exists_unsealed (hid : transId.length = 12) (hsoftware : software.length ≤ MAX_SOFTWARE_LEN) :
    ∃ mapped announced : Attribute,
      encodeAttributes [mapped, announced] =
        xorMappedAddress client transId ++ tlv 0x8022 software ∧
      mapped.type = XOR_MAPPED_ADDRESS ∧
      decodeMapped transId mapped.value = some (client.ip, client.port) ∧
      announced.type = SOFTWARE := by
  obtain ⟨mapped, htype, hencode, hdecode⟩ := exists_mapped client hid
  simp only [MAX_SOFTWARE_LEN] at hsoftware
  let announced := Attribute.ofValue SOFTWARE software (by omega)
  refine ⟨mapped, announced, ?_, htype, hdecode, rfl⟩
  rw [encodeAttributes_cons, encodeAttributes_singleton, hencode]
  rfl

/-- The answer to a request is a message for its transaction, with the client's address in front
and a fingerprint if the request had one. -/
theorem exists_answer {attrs : List Attribute} {reply : Bytes} (hid : transId.length = 12)
    (hsoftware : software.length ≤ MAX_SOFTWARE_LEN)
    (h : bindingSuccess (message BINDING_REQUEST transId attrs) client software = some reply) :
    ∃ (mapped : Attribute) (others : List Attribute),
      reply = message BINDING_SUCCESS transId (mapped :: others) ∧
      mapped.type = XOR_MAPPED_ADDRESS ∧
      decodeMapped transId mapped.value = some (client.ip, client.port) ∧
      (∀ attr ∈ others, attr.type ≠ XOR_MAPPED_ADDRESS) ∧
      ((∃ attr ∈ others, attr.type = FINGERPRINT) ↔ ∃ attr ∈ attrs, attr.type = FINGERPRINT) ∧
      ((∃ attr ∈ attrs, attr.type = FINGERPRINT) → checkFingerprint reply = .valid) := by
  obtain ⟨mapped, announced, hencode, htype, hdecode, hannounced⟩ :=
    @exists_unsealed transId software client hid hsoftware
  rw [bindingSuccess_eq hsoftware, slice_message _ hid] at h
  split at h
  · next hasked =>
    have hprinted := (fingerprinted_iff hid).mpr hasked.2
    have hvalid := @checkFingerprint_eq_valid BINDING_REQUEST transId attrs hid
    rw [and_iff_right hprinted] at hvalid
    split at h
    · next hprint =>
      cases h
      have hsome := hvalid.mp hprint
      have hnone : ∀ attr ∈ [mapped, announced], attr.type ≠ FINGERPRINT := by
        simp [htype, hannounced, XOR_MAPPED_ADDRESS, SOFTWARE, FINGERPRINT]
      obtain ⟨hreply, hcheck⟩ := message_fingerprint BINDING_SUCCESS hid hnone
        (show unsealed client transId software FP_ATTR_LEN = _ by rw [hencode]; rfl)
      rw [hreply]
      refine ⟨mapped, _, rfl, htype, hdecode, ?_, ?_, fun _ => hcheck⟩
      · simp [hannounced, SOFTWARE, XOR_MAPPED_ADDRESS, fingerprint, Attribute.ofValue, FINGERPRINT]
      · exact ⟨fun _ => hsome, fun _ => ⟨_, List.mem_cons_of_mem _ (List.mem_singleton.mpr rfl), rfl⟩⟩
    · next hprint =>
      cases h
      have hnone := mt hvalid.mpr hprint
      refine ⟨mapped, [announced], ?_, htype, hdecode, ?_, ?_, fun hsome => absurd hsome hnone⟩
      · rw [message, hencode]
        rfl
      · simp [hannounced, SOFTWARE, XOR_MAPPED_ADDRESS]
      · refine ⟨fun hsome => ?_, fun hsome => absurd hsome hnone⟩
        simp [hannounced, SOFTWARE, FINGERPRINT] at hsome
  · cases h

end Responder

/-! ### The generator -/

section Generator

variable {p : BindingRequest} (P : Primitives)

/-- A request tiles into the attributes that were written, with a valid fingerprint behind
them. -/
theorem exists_build (hid : p.transId.length = 12) (hsoftware : p.software.length ≤ MAX_SOFTWARE_LEN)
    (husername : p.username.length ≤ MAX_SOFTWARE_LEN) :
    (bindingRequestLen (p.buildBindingRequest P)).isSome = true ∧
      checkFingerprint (p.buildBindingRequest P) = .valid := by
  simp only [MAX_SOFTWARE_LEN] at hsoftware husername
  let integrity := P.hmacSha1 p.icePwd
    (header p.transId (p.baseAttrs.length + 24) ++ p.baseAttrs)
  have hintegrity : integrity.length = 20 := P.length_hmacSha1 _ _
  let attrs : List Attribute :=
    [.ofValue SOFTWARE p.software (by omega), .ofValue 0x0006 p.username (by omega),
      .ofValue 0x0024 (beBytes 4 p.priority) (by simp),
      .ofValue 0x802a (beBytes 8 p.iceControlling) (by simp)] ++
    (if p.withUseCandidate then [.ofValue 0x0025 [] (by simp)] else []) ++
    [.ofValue 0x0008 integrity (by omega)]
  have hencode : encodeAttributes attrs = p.baseAttrs ++ tlv 0x0008 integrity := by
    cases hcandidate : p.withUseCandidate <;>
      simp [attrs, hcandidate, encodeAttributes, encode_ofValue, BindingRequest.baseAttrs, SOFTWARE]
  have hnone : ∀ attr ∈ attrs, attr.type ≠ FINGERPRINT := by
    cases hcandidate : p.withUseCandidate <;>
      simp [attrs, hcandidate, Attribute.ofValue, SOFTWARE, FINGERPRINT]
  have hbuild : p.buildBindingRequest P = header p.transId ((encodeAttributes attrs).length + 8) ++
      encodeAttributes attrs ++ tlv 0x8028 (beBytes 4 (crc32Ieee
        (header p.transId ((encodeAttributes attrs).length + 8) ++ encodeAttributes attrs) ^^^
          0x5354554e).toNat) := by
    rw [hencode]
    rfl
  obtain ⟨hmessage, hvalid⟩ := message_fingerprint BINDING_REQUEST hid hnone
    (show header p.transId ((encodeAttributes attrs).length + 8) ++ encodeAttributes attrs = _
      from rfl)
  rw [hbuild, hmessage]
  refine ⟨isSome_bindingRequestLen_message hid ?_, hvalid⟩
  rw [← hmessage, hencode]
  cases hcandidate : p.withUseCandidate <;>
    simp [tlv, padded, BindingRequest.baseAttrs, hcandidate, header, MAGIC_COOKIE, hid, hintegrity,
      MAX_BINDING_REQUEST_LEN] <;>
    omega

theorem length_randomToken (minLen maxLen : Nat) (h : minLen ≤ maxLen) :
    Draw.Yields (randomToken minLen maxLen) fun token => token.length ≤ maxLen := by
  refine .last fun word rng => ?_
  have hword := Nat.mod_lt word (show 0 < maxLen - minLen + 1 by omega)
  have hdrawn : (Draw.oneOf TOKEN_ALPHABET 0).Yields fun _ => True := fun _ => trivial
  have hlength := (hdrawn.times (minLen + word % (maxLen - minLen + 1)) rng).1
  exact Nat.le_trans (Nat.le_of_eq hlength) (by omega)

theorem length_hostSoftware : (hostSoftware P).length ≤ MAX_SOFTWARE_LEN := by
  have hpool : ∀ i < SOFTWARE_POOL.length,
      (SOFTWARE_POOL.getD i []).length ≤ MAX_SOFTWARE_LEN := by
    decide
  exact hpool _ (Nat.mod_lt _ (by decide))

theorem generate_answerable :
    Draw.Yields (generate P) fun datagrams => ∀ d ∈ datagrams,
      (bindingRequestLen d).isSome = true ∧ checkFingerprint d = .valid := by
  refine .bind (length_randomToken 4 8 (by decide)) fun ufrag hufrag => ?_
  refine .bind (length_randomToken 4 8 (by decide)) fun remote hremote => ?_
  refine .last fun icePwd => .last fun priority => .last fun high => .last fun low => ?_
  have husername : (ufrag ++ ascii ":" ++ remote).length ≤ MAX_SOFTWARE_LEN := by
    simp only [List.length_append, show (ascii ":").length = 1 from rfl, MAX_SOFTWARE_LEN]
    omega
  refine .bind (.bytes_length 12) fun first hfirst => ?_
  refine .bind (.bytes_length 12) fun second hsecond => .pure ?_
  refine List.forall_mem_cons.mpr ⟨?_, List.forall_mem_singleton.mpr ?_⟩
  · exact exists_build P hfirst (length_hostSoftware P) husername
  · exact exists_build P hsecond (length_hostSoftware P) husername

end Generator

/-! ### Requests and their answers -/

/-- The responder answers the requests of the grammar whose fingerprint, if they have one, is as
it should be, and nothing else. Its answer is a message of the grammar for the same transaction:
the client reads its own address from it, and it has a valid fingerprint if the request had one.
What the generator writes is answered, and has one. -/
theorem binding_responder (client : SocketAddr) (software : Bytes)
    (hsoftware : software.length ≤ MAX_SOFTWARE_LEN) :
    (∀ request, (bindingSuccess request client software).isSome = true ↔
      ∃ (transId : Bytes) (attrs : List Attribute), transId.length = 12 ∧
        request.length ≤ MAX_BINDING_REQUEST_LEN ∧
        request = message BINDING_REQUEST transId attrs ∧
        Fingerprinted BINDING_REQUEST transId attrs) ∧
    (∀ (transId : Bytes) (attrs : List Attribute) (reply : Bytes), transId.length = 12 →
      bindingSuccess (message BINDING_REQUEST transId attrs) client software = some reply →
      ∃ (mapped : Attribute) (others : List Attribute),
        reply = message BINDING_SUCCESS transId (mapped :: others) ∧
        mapped.type = XOR_MAPPED_ADDRESS ∧
        decodeMapped transId mapped.value = some (client.ip, client.port) ∧
        (∀ attr ∈ others, attr.type ≠ XOR_MAPPED_ADDRESS) ∧
        ((∃ attr ∈ others, attr.type = FINGERPRINT) ↔ ∃ attr ∈ attrs, attr.type = FINGERPRINT) ∧
        ((∃ attr ∈ attrs, attr.type = FINGERPRINT) → checkFingerprint reply = .valid)) ∧
    ∀ P : Primitives, Draw.Yields (generate P) fun datagrams => ∀ d ∈ datagrams,
      (bindingSuccess d client software).isSome = true ∧ checkFingerprint d = .valid := by
  refine ⟨fun request => ?_, fun transId attrs reply hid => exists_answer hid hsoftware,
    fun P rng d hmem => ?_⟩
  · rw [bindingSuccess_isSome hsoftware, answerable_iff]
  · obtain ⟨hlen, hvalid⟩ := generate_answerable P rng d hmem
    refine ⟨(bindingSuccess_isSome hsoftware).mpr ⟨hlen, ?_⟩, hvalid⟩
    rw [hvalid]
    nofun

/-- A name, and the fingerprint of a request with it. -/
def namedAttributes : List Attribute :=
  let name : Attribute := .ofValue SOFTWARE (ascii "ICE") (by decide)
  [name, fingerprint (preamble BINDING_REQUEST (List.replicate 12 7) 16 ++ name.encode)]

/-- The request gets its answer, with a fingerprint. -/
theorem binding_responder_named :
    let client : SocketAddr := .v4 0xc0000201 3478
    ∃ (mapped : Attribute) (others : List Attribute),
      bindingSuccess (message BINDING_REQUEST (List.replicate 12 7) namedAttributes) client
          (ascii "Mozilla") =
        some (message BINDING_SUCCESS (List.replicate 12 7) (mapped :: others)) ∧
      decodeMapped (List.replicate 12 7) mapped.value = some (client.ip, client.port) ∧
      ∃ attr ∈ others, attr.type = FINGERPRINT := by
  intro client
  obtain ⟨hanswers, hanswer, -⟩ := binding_responder client (ascii "Mozilla") (by decide)
  have hprinted : Fingerprinted BINDING_REQUEST (List.replicate 12 7) namedAttributes :=
    (fingerprinted_iff rfl).mpr (by decide +kernel)
  obtain ⟨reply, hreply⟩ := Option.isSome_iff_exists.mp
    ((hanswers _).mpr ⟨List.replicate 12 7, namedAttributes, rfl, by decide, rfl, hprinted⟩)
  obtain ⟨mapped, others, rfl, -, haddress, -, hfingerprint, -⟩ := hanswer _ _ _ rfl hreply
  exact ⟨mapped, others, hreply, haddress, hfingerprint.mpr ⟨_, List.mem_cons_of_mem _
    List.mem_cons_self, rfl⟩⟩

end BoringTun.Imitation.Stun

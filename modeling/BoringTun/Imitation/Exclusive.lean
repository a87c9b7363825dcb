import BoringTun.Imitation.Respond

/-!
No datagram is taken for two protocols (`noise/imitation/detect.rs`): the four detectors look at
bytes in common, and on these each of them asks for something the others refuse.

* `probes_exclusive`: the order in which they are tried does not matter, nor does the cookie
  that keeps STUN out of the DNS arm;
* `detect_eq_some`: a datagram is a probe of a protocol if its detector takes it.
-/

namespace BoringTun

/-- Of what at most one element passes, a search finds that one. -/
theorem find?_eq_some_of_exclusive {α : Type*} {test : α → Bool} {l : List α} {a : α}
    (h : ∀ b c, test b = true → test c = true → b = c) :
    l.find? test = some a ↔ a ∈ l ∧ test a = true := by
  constructor
  · intro hfind
    exact ⟨List.mem_of_find?_eq_some hfind, List.find?_some hfind⟩
  · rintro ⟨hmem, htest⟩
    cases hfind : l.find? test with
    | none => exact absurd htest (List.find?_eq_none.mp hfind a hmem)
    | some b =>
      rw [h b a (List.find?_some hfind) htest]

namespace Imitation

/-- The detector of a protocol. That of DNS may be guarded by the STUN cookie. -/
def takes (guarded : Bool) (data : Bytes) : Probe → Bool
  | .quic => (parseLongHeader data).isSome
  | .stun => (bindingRequestLen data).isSome
  | .dns =>
    !(guarded && (data.length ≥ 8 && slice data 4 8 = MAGIC_COOKIE)) && (questionEnd data).isSome
  | .sip => startsLikeSip data

/-- The first detector that takes a datagram, in some order. -/
def detectIn (order : List Probe) (guarded : Bool) (data : Bytes) : Option Probe :=
  order.find? (takes guarded data)

theorem detect_eq_detectIn (data : Bytes) :
    detect data = detectIn [.quic, .stun, .dns, .sip] true data := by
  unfold detect detectIn
  simp only [List.find?_cons, List.find?_nil, takes, Bool.true_and]
  cases data with
  | nil => rfl
  | cons byte rest =>
    rw [if_neg (by simp)]
    cases (parseLongHeader (byte :: rest)).isSome with
    | true => rfl
    | false =>
      cases (bindingRequestLen (byte :: rest)).isSome with
      | true => rfl
      | false =>
        cases startsLikeSip (byte :: rest) with
        | true => grind
        | false => grind

/-! ### What each detector asks for -/

theorem beNat_quad (a b c d : UInt8) :
    beNat [a, b, c, d] = 2 ^ 24 * a.toNat + 2 ^ 16 * b.toNat + 2 ^ 8 * c.toNat + d.toNat := by
  change d.toNat + 256 * (c.toNat + 256 * (b.toNat + 256 * (a.toNat + 256 * 0))) = _
  omega

/-- A version does not end in a zero byte. -/
theorem isKnownVersion_eq_false {version : Nat} (h : version % 2 ^ 8 = 0) :
    isKnownVersion version = false := by
  have hgrease : version &&& 0x0f0f0f0f ≠ 0x0a0a0a0a := by
    intro heq
    have hlow := congrArg (· % 2 ^ 8) heq
    simp only [Nat.and_mod_two_pow, h, Nat.zero_and] at hlow
    exact absurd hlow (by decide)
  have hdraft : version &&& 0xff = 0 := by
    rw [show (0xff : Nat) = 2 ^ 8 - 1 from rfl, Nat.and_two_pow_sub_one_eq_mod, h]
  have hsupported : isSupportedByRealServers version = false := by
    simp only [isSupportedByRealServers, REAL_SERVER_VERSIONS, List.contains_eq_mem,
      List.mem_cons, List.not_mem_nil, or_false, decide_eq_false_iff_not]
    omega
  simp [isKnownVersion, hgrease, hdraft, hsupported]

theorem parseLongHeader_isSome {data : Bytes} (h : (parseLongHeader data).isSome = true) :
    7 ≤ data.length ∧ byteAt data 0 &&& 0xc0 = 0xc0 ∧
      isKnownVersion (beNat (slice data 1 5)) = true := by
  refine ⟨?_, ?_, ?_⟩
  · by_contra hshort
    rw [parseLongHeader, if_pos (.inl (Nat.lt_of_not_le hshort))] at h
    cases h
  · by_contra hform
    rw [parseLongHeader_of_form hform] at h
    cases h
  · by_contra hversion
    rw [parseLongHeader_of_version (Bool.eq_false_iff.mpr hversion)] at h
    cases h

/-- The bytes two detectors may look at, of a datagram that has them. -/
theorem exists_head {data : Bytes} (h : 6 ≤ data.length) :
    ∃ b₀ b₁ b₂ b₃ b₄ b₅ rest, data = b₀ :: b₁ :: b₂ :: b₃ :: b₄ :: b₅ :: rest := by
  match data, h with
  | b₀ :: b₁ :: b₂ :: b₃ :: b₄ :: b₅ :: rest, _ => exact ⟨b₀, b₁, b₂, b₃, b₄, b₅, rest, rfl⟩

/-- What starts with a method is taken for SIP. -/
theorem startsLikeSip_append {method : Bytes} (h : method ∈ SIP_PREFIXES) (rest : Bytes) :
    startsLikeSip (method ++ rest) = true := by
  have hall : ∀ method ∈ SIP_PREFIXES, method.length ≤ 10 ∧ method.map toAsciiUpper = method := by
    decide
  obtain ⟨hlen, hupper⟩ := hall method h
  refine List.any_eq_true.mpr ⟨method, h, decide_eq_true_eq.mpr ?_⟩
  rw [← List.map_take, List.take_take, Nat.min_eq_left hlen, List.take_left, hupper]

/-! ### Exclusion -/

/-- A letter is neither small nor large. -/
theorem letter_range {byte : UInt8} (h : 65 ≤ toAsciiUpper byte ∧ toAsciiUpper byte ≤ 90) :
    65 ≤ byte.toNat ∧ byte.toNat ≤ 122 := by
  have hall : ∀ n < 256, 65 ≤ toAsciiUpper (UInt8.ofNat n) → toAsciiUpper (UInt8.ofNat n) ≤ 90 →
      65 ≤ n ∧ n ≤ 122 := by
    decide +kernel
  have hbyte := hall byte.toNat byte.toNat_lt
  rw [UInt8.ofNat_toNat] at hbyte
  exact hbyte h.1 h.2

theorem sip_byteAt {data : Bytes} (h : startsLikeSip data = true) {i : Nat} (hi : i < 3) :
    65 ≤ byteAt data i ∧ byteAt data i ≤ 122 := by
  obtain ⟨byte, hbyte, hletter⟩ := letter_of_startsLikeSip h hi
  rw [byteAt, List.getD_eq_getElem?_getD, hbyte]
  exact letter_range hletter

theorem quic_byteAt {data : Bytes} (h : (parseLongHeader data).isSome = true) :
    0xc0 ≤ byteAt data 0 := by
  have hbits := Nat.and_le_left (n := byteAt data 0) (m := 0xc0)
  rwa [(parseLongHeader_isSome h).2.1] at hbits

theorem stun_byteAt {data : Bytes} (h : (bindingRequestLen data).isSome = true) :
    byteAt data 0 = 0 ∧ byteAt data 4 = 0x21 := by
  obtain ⟨⟨hlen, -⟩, htype, hcookie, -⟩ := bindingRequestLen_isSome.mp h
  obtain ⟨b₀, b₁, b₂, b₃, b₄, b₅, rest, rfl⟩ := exists_head (Nat.le_trans (by decide) hlen)
  have hpair : beNat [b₀, b₁] = 1 := htype
  have hfirst : b₄ :: (b₅ :: rest).take 3 = MAGIC_COOKIE := hcookie
  rw [beNat_pair] at hpair
  rw [MAGIC_COOKIE, List.cons.injEq] at hfirst
  refine ⟨?_, ?_⟩
  · change b₀.toNat = 0
    omega
  · change b₄.toNat = 0x21
    rw [hfirst.1]
    rfl

theorem dns_byteAt {data : Bytes} (h : (questionEnd data).isSome = true) :
    byteAt data 2 < 8 ∧ byteAt data 4 = 0 := by
  obtain ⟨stop, hend⟩ := Option.isSome_iff_exists.mp h
  have hquery := questionEnd_spec hend
  have hlen := hquery.header
  obtain ⟨b₀, b₁, b₂, b₃, b₄, b₅, rest, rfl⟩ := exists_head (Nat.le_trans (by decide) hlen)
  have hflags : b₂.toNat &&& 0xf8 = 0 := hquery.flags
  have hcount : beNat [b₄, b₅] = 1 := hquery.questions
  have hall : ∀ n < 256, n &&& 0xf8 = 0 → n < 8 := by decide +kernel
  rw [beNat_pair] at hcount
  refine ⟨hall _ b₂.toNat_lt hflags, ?_⟩
  change b₄.toNat = 0
  omega

/-- The count of questions stands where a version ends. -/
theorem quic_byteAt_four {data : Bytes} (h : (parseLongHeader data).isSome = true) :
    byteAt data 4 ≠ 0 := by
  obtain ⟨hlen, -, hversion⟩ := parseLongHeader_isSome h
  obtain ⟨b₀, b₁, b₂, b₃, b₄, b₅, rest, rfl⟩ := exists_head (Nat.le_trans (by decide) hlen)
  intro hzero
  change b₄.toNat = 0 at hzero
  have hlow : beNat [b₁, b₂, b₃, b₄] % 2 ^ 8 = 0 := by
    rw [beNat_quad]
    omega
  have hnone : isKnownVersion (beNat [b₁, b₂, b₃, b₄]) = false := isKnownVersion_eq_false hlow
  exact absurd (hversion.symm.trans hnone) nofun

/-- At most one detector takes a datagram, the DNS one without its guard. -/
theorem takes_unique {data : Bytes} {p q : Probe} (hp : takes false data p = true)
    (hq : takes false data q = true) : p = q := by
  have hquic (h : takes false data .quic = true) : 0xc0 ≤ byteAt data 0 ∧ byteAt data 4 ≠ 0 :=
    ⟨quic_byteAt h, quic_byteAt_four h⟩
  have hstun (h : takes false data .stun = true) : byteAt data 0 = 0 ∧ byteAt data 4 = 0x21 :=
    stun_byteAt h
  have hdns (h : takes false data .dns = true) : byteAt data 2 < 8 ∧ byteAt data 4 = 0 :=
    dns_byteAt h
  have hsip (h : takes false data .sip = true) :
      (65 ≤ byteAt data 0 ∧ byteAt data 0 ≤ 122) ∧ 65 ≤ byteAt data 2 :=
    ⟨sip_byteAt h (by decide), (sip_byteAt h (by decide)).1⟩
  cases p <;> cases q <;> grind

theorem takes_of_guarded {data : Bytes} {p : Probe} {guarded : Bool}
    (h : takes guarded data p = true) : takes false data p = true := by
  cases p with
  | dns => exact (Bool.and_eq_true_iff.mp h).2
  | quic => exact h
  | stun => exact h
  | sip => exact h

/-- The guard changes nothing: a query has no STUN cookie. -/
theorem takes_guarded (guarded : Bool) (data : Bytes) (p : Probe) :
    takes guarded data p = takes false data p := by
  refine Bool.eq_iff_iff.mpr ⟨takes_of_guarded, fun h => ?_⟩
  cases p with
  | dns =>
    have hfour := (dns_byteAt h).2
    have hcookie : ¬ (8 ≤ data.length ∧ slice data 4 8 = MAGIC_COOKIE) := by
      rintro ⟨hlen, hcookie⟩
      obtain ⟨b₀, b₁, b₂, b₃, b₄, b₅, rest, rfl⟩ := exists_head (Nat.le_trans (by decide) hlen)
      have hfirst : b₄ :: (b₅ :: rest).take 3 = MAGIC_COOKIE := hcookie
      rw [MAGIC_COOKIE, List.cons.injEq] at hfirst
      change b₄.toNat = 0 at hfour
      rw [hfirst.1] at hfour
      exact absurd hfour (by decide)
    simp only [takes, Bool.and_eq_true, Bool.not_eq_true', ge_iff_le]
    refine ⟨?_, h⟩
    simpa using fun _ hlen => fun heq => hcookie ⟨hlen, heq⟩
  | quic => exact h
  | stun => exact h
  | sip => exact h

theorem detectIn_eq_some {order : List Probe} {guarded : Bool} {data : Bytes} {p : Probe} :
    detectIn order guarded data = some p ↔ p ∈ order ∧ takes false data p = true := by
  unfold detectIn
  rw [funext (takes_guarded guarded data)]
  exact find?_eq_some_of_exclusive fun _ _ => takes_unique

/-- A datagram is a probe of the protocol whose detector takes it. -/
theorem detect_eq_some {data : Bytes} {p : Probe} :
    detect data = some p ↔ takes false data p = true := by
  rw [detect_eq_detectIn, detectIn_eq_some]
  cases p <;> simp

/-- At most one of the four takes a datagram, so that they may be tried in any order, and the DNS
one with or without its guard. -/
theorem probes_exclusive (data : Bytes) :
    (∀ p q, takes false data p = true → takes false data q = true → p = q) ∧
    ∀ order guarded, order.Perm [.quic, .stun, .dns, .sip] →
      detectIn order guarded data = detect data := by
  refine ⟨fun p q => takes_unique, fun order guarded hperm => ?_⟩
  refine Option.ext fun p => ?_
  rw [detectIn_eq_some, detect_eq_some, hperm.mem_iff]
  cases p <;> simp

/-- A query is a query for whoever asks for SIP first. -/
theorem probes_exclusive_query :
    detectIn [.sip, .dns, .stun, .quic] false
        ([0, 0, 1, 0, 0, 1, 0, 0, 0, 0, 0, 0, 1, 97, 0, 0, 1, 0, 1] : Bytes) = some .dns := by
  rw [(probes_exclusive _).2 _ false (by decide)]
  decide

end Imitation

end BoringTun

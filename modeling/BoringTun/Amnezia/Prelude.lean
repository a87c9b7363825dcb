import BoringTun.Amnezia.Burst
import BoringTun.Imitation.DnsGrammar
import BoringTun.Imitation.StunGrammar
import BoringTun.Quic.Packet

/-!
What a server in `Auto` mode makes of the datagrams a client sends before its handshake
(`noise/amnezia.rs`): it takes each of them for the protocol they imitate
(`prelude_recognised`), whatever host the configuration accepted or made up.
-/

namespace BoringTun

open Imitation

/-! ### Hosts -/

/-- A server name may be any text without control characters. -/
def isValidQuicSni (host : Bytes) : Bool :=
  !host.isEmpty && host.length ≤ 253 && !host.any fun b => b < 0x20 || b = 0x7f

/-- A host that the protocol cannot carry is dropped, and so is a browser it does not have. -/
def AmneziaImitation.new (protocol : AmneziaImitationProtocol) (domain : Option Bytes)
    (browser : AmneziaImitationBrowser) : AmneziaImitation where
  protocol := protocol
  domain := match protocol with
    | .dns | .sip => domain.filter isValidImitationHost
    | .quic => domain.filter isValidQuicSni
    | _ => none
  browser := if protocol = .quic then browser else .default

/-- A name whose labels a resolver takes as they are. -/
structure HostLabels (host : Bytes) : Prop where
  short : host.length ≤ 253
  labels : ∀ label ∈ host.splitOn 46, 1 ≤ label.length ∧ label.length ≤ 63

theorem splitOn_cons (byte : UInt8) (rest : Bytes) : ∃ label labels,
    rest.splitOn 46 = label :: labels ∧ (byte :: rest).splitOn 46 =
      if byte = 46 then [] :: label :: labels else (byte :: label) :: labels := by
  obtain ⟨label, labels, hsplit⟩ := List.exists_cons_of_ne_nil
    (List.splitOnP_ne_nil (· == (46 : UInt8)) rest)
  refine ⟨label, labels, hsplit, ?_⟩
  rw [List.splitOn, List.splitOnP_cons_eq_if_modifyHead, hsplit]
  simp

/-- The scan has passed labels of 1 to 63 bytes. -/
theorem validLabels_splitOn {labelLen : Nat} {labelStart previousHyphen : Bool} {host : Bytes}
    (h : validLabels labelLen labelStart previousHyphen host = true) (hlen : labelLen ≤ 63) :
    ∃ label labels, host.splitOn 46 = label :: labels ∧
      (1 ≤ labelLen + label.length ∧ labelLen + label.length ≤ 63) ∧
      ∀ other ∈ labels, 1 ≤ other.length ∧ other.length ≤ 63 := by
  induction host generalizing labelLen labelStart previousHyphen with
  | nil =>
    simp only [validLabels, gt_iff_lt, Bool.and_eq_true, decide_eq_true_eq] at h
    exact ⟨[], [], rfl, ⟨h.1, hlen⟩, nofun⟩
  | cons byte rest ih =>
    obtain ⟨label, labels, hrest, hsplit⟩ := splitOn_cons byte rest
    rw [validLabels] at h
    rw [hsplit]
    split at h
    · next hdot =>
      rw [if_pos hdot]
      split at h
      · cases h
      next hended =>
      obtain ⟨label', labels', hrest', hlabel, hlabels⟩ := ih h (Nat.zero_le _)
      rw [hrest] at hrest'
      cases hrest'
      refine ⟨[], _, rfl, ⟨?_, hlen⟩, List.forall_mem_cons.mpr ⟨?_, hlabels⟩⟩
      · rw [not_or] at hended
        exact Nat.pos_of_ne_zero hended.1
      · rwa [Nat.zero_add] at hlabel
    · next hdot =>
      rw [if_neg hdot]
      split at h
      · cases h
      split at h
      · cases h
      split at h
      · cases h
      next hroom =>
      obtain ⟨label', labels', hrest', hlabel, hlabels⟩ := ih h (Nat.not_lt.mp hroom)
      rw [hrest] at hrest'
      cases hrest'
      refine ⟨_, _, rfl, ?_, hlabels⟩
      rw [List.length_cons]
      omega

theorem HostLabels.of_isValid {host : Bytes} (h : isValidImitationHost host = true) :
    HostLabels host := by
  unfold isValidImitationHost at h
  split at h
  · cases h
  next hbounds =>
  obtain ⟨label, labels, hsplit, hlabel, hlabels⟩ := validLabels_splitOn h (Nat.zero_le _)
  refine ⟨?_, ?_⟩
  · simp only [Bool.or_eq_true, decide_eq_true_eq, not_or] at hbounds
    omega
  · rw [hsplit]
    rw [Nat.zero_add] at hlabel
    exact List.forall_mem_cons.mpr ⟨hlabel, hlabels⟩

/-- What has no dot lengthens the label it stands before. -/
theorem splitOn_append {label : Bytes} (h : ∀ b ∈ label, b ≠ 46) (rest : Bytes) :
    (label ++ rest).splitOn 46 = (rest.splitOn 46).modifyHead (label ++ ·) := by
  induction label with
  | nil =>
    obtain ⟨first, labels, hsplit⟩ := List.exists_cons_of_ne_nil
      (List.splitOnP_ne_nil (· == (46 : UInt8)) rest)
    rw [List.nil_append, List.splitOn, hsplit]
    rfl
  | cons byte label ih =>
    obtain ⟨hbyte, hlabel⟩ := List.forall_mem_cons.mp h
    obtain ⟨first, labels, hsplit, hcons⟩ := splitOn_cons byte (label ++ rest)
    obtain ⟨first', labels', hrest⟩ := List.exists_cons_of_ne_nil
      (List.splitOnP_ne_nil (· == (46 : UInt8)) rest)
    have htail := hsplit.symm.trans (ih hlabel)
    rw [List.splitOn, hrest] at htail
    cases htail
    rw [List.cons_append, hcons, if_neg hbyte, List.splitOn, hrest]
    rfl

/-- Letters, a dot and letters are two labels. -/
theorem splitOn_dot {label last : Bytes} (hlabel : ∀ b ∈ label, b ≠ 46) (hlast : ∀ b ∈ last, b ≠ 46) :
    (label ++ 46 :: last).splitOn 46 = [label, last] := by
  have hdot : (46 :: last).splitOn 46 = [[], last] := by
    have hwhole := splitOn_append hlast []
    rw [List.append_nil] at hwhole
    obtain ⟨first, labels, hsplit, hcons⟩ := splitOn_cons 46 last
    rw [hcons, if_pos rfl, ← hsplit, hwhole]
    simp [List.splitOn, List.splitOnP_nil]
  rw [splitOn_append hlabel, hdot]
  simp

theorem randomImitationDomain_hostLabels : randomImitationDomain.Yields HostLabels := by
  refine .last fun count => ?_
  have hletter : (Draw.word >>= fun word => pure (UInt8.ofNat (97 + word % 26)) : Draw UInt8).Yields
      fun letter => letter ≠ 46 := by
    refine .last fun word => .pure ?_
    have hall : ∀ n < 26, UInt8.ofNat (97 + n) ≠ 46 := by decide
    exact hall _ (Nat.mod_lt _ (by decide))
  have htld : (Draw.oneOf (["com", "net", "org", "io"].map ascii) []).Yields fun tld =>
      (∀ b ∈ tld, b ≠ 46) ∧ 1 ≤ tld.length ∧ tld.length ≤ 63 :=
    .oneOf (by decide) (by decide +kernel)
  refine .bind (hletter.times _) fun letters hletters => .bind htld fun tld htld => .pure ?_
  have hcount := Nat.mod_lt count (show 0 < 10 by decide)
  have hdot : letters ++ ascii "." ++ tld = letters ++ 46 :: tld := by
    rw [List.append_assoc]
    rfl
  rw [hdot]
  refine ⟨?_, ?_⟩
  · rw [List.length_append, List.length_cons]
    omega
  · rw [splitOn_dot hletters.2 htld.1]
    refine List.forall_mem_cons.mpr ⟨?_, List.forall_mem_singleton.mpr htld.2⟩
    omega

/-! ### Each protocol's datagrams -/

/-- No label of such a host is cut. -/
theorem HostLabels.flatMap_writeLabel {host : Bytes} (h : HostLabels host) :
    (host.splitOn 46).flatMap Imitation.Dns.writeLabel = dnsLabels (host.splitOn 46) := by
  refine List.flatMap_congr fun label hmem => ?_
  have hlen := (h.labels label hmem).2
  rw [Imitation.Dns.writeLabel, Nat.min_eq_left hlen, List.take_length]

theorem detect_buildQuery {host : Bytes} (h : HostLabels host) (qtype : Nat) :
    (Imitation.Dns.buildQuery host qtype).Yields fun query => detect query = some .dns := by
  refine .last fun transactionId => .pure ?_
  rw [detect_eq_some, takes, Bool.false_and, Bool.not_false, Bool.true_and]
  have hshort : (dnsLabels (host.splitOn 46)).length + 1 ≤ 255 := by
    have hhost := h.short
    rw [length_dnsLabels, sum_splitOn]
    omega
  rw [h.flatMap_writeLabel]
  have hsome := @Imitation.Dns.questionEnd_of_labels (UInt8.ofNat (transactionId / 256))
    (UInt8.ofNat transactionId) 1 0 0 0 (UInt8.ofNat (qtype / 256)) (UInt8.ofNat qtype) _ (by decide)
    (by decide) h.labels hshort []
  simpa [Imitation.Dns.beBytes_two, Imitation.Dns.QCLASS_IN] using hsome

theorem detect_of_method {method : Bytes} (h : method ∈ SIP_PREFIXES) (rest : Bytes) :
    detect (method ++ rest) = some .sip := by
  rw [detect_eq_some]
  exact startsLikeSip_append h rest

theorem detect_generate_sip (host : Bytes) :
    (Sip.generate host).Yields fun datagrams => ∀ d ∈ datagrams, detect d = some .sip := by
  refine .last fun call => .pure (List.forall_mem_cons.mpr ⟨?_, List.forall_mem_singleton.mpr ?_⟩)
  · exact detect_of_method (show ascii "INVITE " ∈ SIP_PREFIXES by decide) _
  · exact detect_of_method (show ascii "CANCEL " ∈ SIP_PREFIXES by decide) _

theorem detect_buildClientInitial (P : Primitives) {p : Quic.InitialParams} (hdcid : p.dcid.length ≤ 20)
    (hscid : p.scid.length ≤ 20) : detect (p.buildClientInitial P) = some .quic := by
  obtain ⟨first, rest, hform, hpacket⟩ := p.exists_longHeader P
  rw [detect_eq_some, takes, hpacket, Quic.parseLongHeader_eq hform hdcid hscid]
  rfl

theorem detect_generate_dns {host : Bytes} (h : HostLabels host) :
    (Imitation.Dns.generate host).Yields fun datagrams => ∀ d ∈ datagrams, detect d = some .dns :=
  .mapM _ fun qtype _ => detect_buildQuery h qtype

theorem detect_generate_stun (P : Primitives) :
    (Stun.generate P).Yields fun datagrams => ∀ d ∈ datagrams, detect d = some .stun := by
  intro rng d hmem
  rw [detect_eq_some]
  exact (Stun.generate_answerable P rng d hmem).1

/-- Only one browser has a connection id of its own, and that is short. -/
theorem length_sourceConnectionId (browser : Quic.BrowserProfile) :
    (Quic.sourceConnectionId browser).Yields fun scid => scid.length ≤ 3 := by
  unfold Quic.sourceConnectionId
  split
  · exact fun rng => Nat.le_of_eq (Draw.Yields.bytes_length 3 rng)
  · exact .pure (Nat.zero_le _)

theorem detect_generate_quic (P : Primitives) (browser : Quic.BrowserProfile) (host : Bytes) :
    (Quic.generateClientInitials P browser host).Yields fun datagrams =>
      ∀ d ∈ datagrams, detect d = some .quic := by
  refine .last fun resolved => .bind (length_sourceConnectionId _) fun scid hscid => ?_
  refine .bind (.bytes_length 8) fun dcid hdcid => .last fun hello => .pure ?_
  have hids : dcid.length ≤ 20 ∧ scid.length ≤ 20 := by omega
  refine List.forall_mem_cons.mpr ⟨detect_buildClientInitial P hids.1 hids.2, ?_⟩
  split
  · exact List.forall_mem_singleton.mpr (detect_buildClientInitial P hids.1 hids.2)
  · exact List.forall_mem_nil _

/-! ### The prelude -/

/-- The host of a DNS imitation, configured or made up, has the labels of a name. -/
theorem imitationHost_hostLabels {cfg : AmneziaConfig} {domain : Option Bytes}
    {browser : AmneziaImitationBrowser} (h : cfg.imitation = .new .dns domain browser) :
    cfg.imitationHost.Yields HostLabels := by
  unfold AmneziaConfig.imitationHost
  split
  · next host hhost =>
    rw [h] at hhost
    obtain ⟨-, hvalid⟩ := Option.filter_eq_some_iff.mp hhost
    exact .pure (.of_isValid hvalid)
  · exact randomImitationDomain_hostLabels

/-- Each datagram of the prelude is a probe of the imitated protocol and of no other. -/
theorem prelude_recognised (P : Primitives) (cfg : AmneziaConfig) (probe : Probe)
    (domain : Option Bytes) (browser : AmneziaImitationBrowser)
    (h : cfg.imitation = .new probe.protocol domain browser) (rng : Rng) :
    ∀ entry ∈ (cfg.preHandshakeImitationDatagrams P rng).1, detect entry.2 = some probe := by
  have hprotocol : cfg.imitation.protocol = probe.protocol := by rw [h]; rfl
  have hall : (cfg.coverDatagrams P).Yields fun datagrams =>
      ∀ d ∈ datagrams, detect d = some probe := by
    unfold AmneziaConfig.coverDatagrams
    rw [hprotocol]
    cases probe with
    | dns => exact .bind (imitationHost_hostLabels h) fun host hhost => detect_generate_dns hhost
    | sip => exact .last fun host => detect_generate_sip host
    | stun => exact detect_generate_stun P
    | quic => exact .last fun host => detect_generate_quic P _ host
  intro entry hentry
  obtain ⟨i, hi, rfl⟩ := List.mem_mapIdx.mp hentry
  exact hall rng _ (List.getElem_mem hi)

/-- A configuration that asks for `example.com`. -/
def exampleQueries : AmneziaConfig where
  imitation := { protocol := .dns, domain := some (ascii "example.com") }

theorem prelude_recognised_exampleQueries :
    (exampleQueries.preHandshakeImitationDatagrams termPrimitives zeroRng).1 ≠ [] ∧
      ∀ entry ∈ (exampleQueries.preHandshakeImitationDatagrams termPrimitives zeroRng).1,
        detect entry.2 = some .dns :=
  ⟨by decide +kernel, prelude_recognised termPrimitives exampleQueries .dns
    (some (ascii "example.com")) .default (by decide) zeroRng⟩

end BoringTun

import BoringTun.Amnezia.Framing
import BoringTun.Imitation.Detect

/-!
What a prefix gives away, and what a DNS prefix says of the datagram behind it.

* `junk_noninterference`: a prefix depends on nothing the buffer held, unless it is a DNS
  prefix of one, three or five bytes;
* `dns_cover`: a DNS prefix with an OPT record accounts for the whole datagram, unless a
  trailer was drawn.
-/

namespace BoringTun.AmneziaConfig

variable (P : Primitives) (cfg : AmneziaConfig) (obf : ObfuscationRanges) (kind : PacketKind)

/-! ### Noninterference -/

section

variable (packet buffer : Bytes) (room : Option TrailerRoom) (rng : Rng)

/-- The first framing of a message would be taken for a control message, so that it is
framed again. -/
def Reframes : Prop :=
  cfg.upstreamCollisionApplies kind (packet.length + cfg.outboundJunkSize kind +
    (cfg.firstTrailer kind packet buffer room rng).1) = true ∧
  ∃ masked, cfg.firstFrame P kind packet buffer room rng = some masked ∧
    cfg.upstreamControlCollision obf masked (List.zipWith (· ^^^ ·)
      ((packet.take DATA_OFFSET_SZ).take TYPE_MASK_SIZE) (slice masked (cfg.outboundJunkSize kind)
        (cfg.outboundJunkSize kind + TYPE_MASK_SIZE))) = true

/-- The prefix of what is sent. -/
def emittedJunk : Result Bytes :=
  (cfg.prependOutboundWithTrailer P obf buffer packet.length room rng).1.map
    (·.take (cfg.outboundJunkSize kind))

end

/-- Neither the filler nor the framer lets a prefix depend on the buffer: not on what the
filler finds there, nor on the message that is framed. -/
structure Noninterfering (messageLen : Nat) (rng : Rng) : Prop where
  filler : ∀ dst dst' : Bytes, dst.length = cfg.outboundJunkSize kind →
    dst'.length = cfg.outboundJunkSize kind →
    cfg.outboundJunk dst messageLen rng = cfg.outboundJunk dst' messageLen rng
  framer : ∀ (P : Primitives) (obf : ObfuscationRanges) (room : Option TrailerRoom)
    (packet packet' buffer buffer' : Bytes), Canonical obf kind packet →
    Canonical obf kind packet' → packet.length = messageLen → packet'.length = messageLen →
    buffer.take messageLen = packet → buffer'.take messageLen = packet' →
    buffer.length = buffer'.length → ¬ cfg.Reframes P obf kind packet buffer room rng →
    ¬ cfg.Reframes P obf kind packet' buffer' room rng →
    cfg.emittedJunk P obf kind packet buffer room rng =
      cfg.emittedJunk P obf kind packet' buffer' room rng

variable {P cfg obf kind}

/-- A filler that reaches every byte forgets what stood there. -/
theorem outboundJunk_congr {dst dst' : Bytes} (messageLen : Nat) (rng : Rng)
    (hlen : dst.length = dst'.length) (h : ¬ LastByteLeft cfg.imitation.protocol dst.length) :
    cfg.outboundJunk dst messageLen rng = cfg.outboundJunk dst' messageLen rng := by
  obtain ⟨written, rng', hfilled, hrun⟩ := cfg.outboundJunk_spec dst.length messageLen rng
  have hwhole : written.length = dst.length := by
    rw [hfilled.length, if_neg h]
  rw [hrun dst rfl, hrun dst' hlen.symm, List.drop_eq_nil_of_le (by omega),
    List.drop_eq_nil_of_le (by omega)]

/-- A last byte that no write reaches is the buffer's. -/
theorem outboundJunk_lastByte {n : Nat} (messageLen : Nat) (rng : Rng)
    (h : LastByteLeft cfg.imitation.protocol n) (front : Bytes) (last : UInt8)
    (hfront : (front ++ [last]).length = n) :
    (cfg.outboundJunk (front ++ [last]) messageLen rng).1.getLast? = some last := by
  obtain ⟨written, rng', hfilled, hrun⟩ := cfg.outboundJunk_spec n messageLen rng
  have hlen : written.length = front.length := by
    rw [hfilled.length, if_pos h, ← hfront, List.length_append, List.length_singleton,
      Nat.add_sub_cancel]
  rw [hrun _ hfront, hlen, List.drop_left]
  simp

section

variable {packet buffer : Bytes} {room : Option TrailerRoom} {rng : Rng}

/-- A framing that does not collide is sent as it is. -/
theorem reframed_of_not_reframes {masked : Bytes}
    (hframe : cfg.firstFrame P kind packet buffer room rng = some masked)
    (hno : ¬ cfg.Reframes P obf kind packet buffer room rng) :
    (cfg.reframed P obf kind packet buffer room rng masked).1 = masked := by
  unfold reframed
  split
  · next happlies =>
    have hclear : cfg.upstreamControlCollision obf masked (List.zipWith (· ^^^ ·)
        ((packet.take DATA_OFFSET_SZ).take TYPE_MASK_SIZE) (slice masked (cfg.outboundJunkSize kind)
          (cfg.outboundJunkSize kind + TYPE_MASK_SIZE))) = false :=
      Bool.eq_false_iff.mpr fun hcollides => hno ⟨happlies, masked, hframe, hcollides⟩
    simp only [UPSTREAM_COLLISION_CANDIDATES, Nat.add_one_sub_one, avoidUpstreamControlCollision,
      hclear, Bool.not_false, ↓reduceIte]
  · rfl

/-- The prefix that is sent without a second framing: the one drawn first. Whether there is
one depends on sizes alone. -/
theorem emittedJunk_eq (hcanon : Canonical obf kind packet)
    (hbuffer : buffer.take packet.length = packet)
    (hno : ¬ cfg.Reframes P obf kind packet buffer room rng) :
    cfg.emittedJunk P obf kind packet buffer room rng =
      if cfg.outboundJunkSize kind = 0 ∧ !cfg.headerProtectionEnabled ∧
        (cfg.firstTrailer kind packet buffer room rng).1 = 0 then .ok []
      else if buffer.length < packet.length + cfg.outboundJunkSize kind ∨
          cfg.headerProtectionEnabled = true ∧ cfg.outboundJunkSize kind < NONCE_SIZE then
        .error .destinationBufferTooSmall
      else .ok (cfg.firstJunk kind packet buffer room rng).1 := by
  rw [emittedJunk, prependOutboundWithTrailer_eq P buffer room rng hcanon hbuffer]
  by_cases hnone : cfg.outboundJunkSize kind = 0 ∧ !cfg.headerProtectionEnabled ∧
      (cfg.firstTrailer kind packet buffer room rng).1 = 0
  · rw [if_pos hnone, if_pos hnone, hnone.1]
    rfl
  rw [if_neg hnone, if_neg hnone]
  by_cases hsize : buffer.length < packet.length + cfg.outboundJunkSize kind
  · rw [if_pos hsize, if_pos (.inl hsize)]
    rfl
  have hroom := Nat.not_lt.mp hsize
  rw [if_neg hsize]
  cases hframe : cfg.firstFrame P kind packet buffer room rng with
  | none =>
    -- masking fails for want of a nonce only
    rw [if_pos]
    · rfl
    · refine .inr (by_contra fun hnonce => ?_)
      obtain ⟨masked, hsome⟩ := firstFrame_isSome P room rng hroom hcanon.atLeast
        (fun hset => Nat.not_lt.mp fun hlt => hnonce ⟨hset, hlt⟩)
      rw [hframe] at hsome
      cases hsome
  | some masked =>
    obtain ⟨hmasked, hnonce⟩ := firstFrame_eq_some hroom hframe
    rw [if_neg]
    · simp only [reframed_of_not_reframes hframe hno, Except.map, Except.ok.injEq]
      rw [hmasked, List.append_assoc, List.take_left' (length_firstJunk hroom)]
    · rintro (hlt | ⟨hset, hlt⟩)
      · exact hsize hlt
      · exact absurd (hnonce hset) (Nat.not_le.mpr hlt)

end

/-- **Prefix noninterference.** What a prefix holds does not depend on the buffer it was
drawn in, nor on the message it is put before, exactly when the filler reaches its last
byte: under every protocol and for every size but a DNS prefix of one, three or five bytes. -/
theorem junk_noninterference (cfg : AmneziaConfig) (kind : PacketKind) (messageLen : Nat)
    (rng : Rng) : cfg.Noninterfering kind messageLen rng ↔
      ¬ LastByteLeft cfg.imitation.protocol (cfg.outboundJunkSize kind) := by
  constructor
  · -- the byte that is left tells two buffers apart
    intro h hleft
    obtain ⟨n, hn⟩ : ∃ n, cfg.outboundJunkSize kind = n + 1 := by
      obtain ⟨-, hsize⟩ := hleft
      exact ⟨cfg.outboundJunkSize kind - 1, by omega⟩
    have hlast := fun last => outboundJunk_lastByte messageLen rng hleft (List.replicate n 0) last
      (by rw [hn, List.length_append, List.length_replicate, List.length_singleton])
    have hsame := h.filler (List.replicate n 0 ++ [0]) (List.replicate n 0 ++ [1])
      (by simp [hn]) (by simp [hn])
    have hbytes := hlast 0
    rw [hsame, hlast 1] at hbytes
    simp at hbytes
  · intro hreached
    refine ⟨fun dst dst' hdst hdst' => ?_, ?_⟩
    · exact outboundJunk_congr messageLen rng (hdst.trans hdst'.symm) (by rwa [hdst])
    · intro P obf room packet packet' buffer buffer' hcanon hcanon' hlen hlen' hbuffer hbuffer'
        hsizes hno hno'
      subst hlen
      rw [← hlen'] at hbuffer'
      rw [emittedJunk_eq hcanon hbuffer hno, emittedJunk_eq hcanon' hbuffer' hno']
      have htrailer : cfg.firstTrailer kind packet' buffer' room rng =
          cfg.firstTrailer kind packet buffer room rng := by
        rw [firstTrailer, firstTrailer, hlen', hsizes]
      rw [htrailer, hlen', hsizes]
      split
      · rfl
      · split
        · rfl
        · next hfits =>
          have hroom := Nat.not_lt.mp (not_or.mp hfits).1
          have hcut : ∀ {message into : Bytes}, message.length = packet.length →
              into.length = buffer'.length →
              ((overwrite into (cfg.outboundJunkSize kind) message).take
                (cfg.outboundJunkSize kind)).length = cfg.outboundJunkSize kind := by
            intro message into hmessage hinto
            rw [List.length_take, length_overwrite (by omega)]
            omega
          rw [firstJunk, firstJunk, htrailer, hlen']
          rw [outboundJunk_congr _ _ ((hcut rfl hsizes).trans (hcut hlen' rfl).symm)]
          rwa [hcut rfl hsizes]

/-- An initiation from the sender index `sender`. -/
def initiationFrom (sender : Nat) : Bytes := leBytes 4 1 ++ leBytes 4 sender ++ List.replicate 140 0

theorem canonical_initiationFrom (sender : Nat) :
    Canonical .default .handshakeInit (initiationFrom sender) where
  exact := by
    rintro _ ⟨⟩
    simp [initiationFrom, HANDSHAKE_INIT_SZ]
  atLeast := by simp [initiationFrom, DATA_OVERHEAD_SZ]
  tag := by rfl

/-- A DNS prefix of five bytes ends in a byte of the message: the first one of the sender
index of an initiation. -/
theorem dns_prefix_shows_sender :
    let cfg : AmneziaConfig := { initPacketJunkSize := 5, imitation := { protocol := .dns } }
    cfg.emittedJunk termPrimitives .default .handshakeInit (initiationFrom 42)
        (initiationFrom 42 ++ List.replicate 5 0) none zeroRng =
      .ok [0x00, 0x00, 0x01, 0x20, 42] ∧
    cfg.emittedJunk termPrimitives .default .handshakeInit (initiationFrom 43)
        (initiationFrom 43 ++ List.replicate 5 0) none zeroRng =
      .ok [0x00, 0x00, 0x01, 0x20, 43] ∧
    ¬ cfg.Noninterfering .handshakeInit HANDSHAKE_INIT_SZ zeroRng := by
  intro cfg
  have hshown : ∀ sender, sender = 42 ∨ sender = 43 →
      cfg.emittedJunk termPrimitives .default .handshakeInit (initiationFrom sender)
        (initiationFrom sender ++ List.replicate 5 0) none zeroRng =
      .ok [0x00, 0x00, 0x01, 0x20, UInt8.ofNat sender] := by
    rintro _ (rfl | rfl) <;> decide +kernel
  refine ⟨hshown 42 (.inl rfl), hshown 43 (.inr rfl), fun h => ?_⟩
  have hlen : ∀ sender, (initiationFrom sender).length = HANDSHAKE_INIT_SZ := by
    intro sender
    simp [initiationFrom, HANDSHAKE_INIT_SZ]
  have hno : ∀ packet buffer,
      ¬ cfg.Reframes termPrimitives .default .handshakeInit packet buffer none zeroRng := by
    rintro packet buffer ⟨happlies, -⟩
    simp [upstreamCollisionApplies] at happlies
  have hsame := h.framer termPrimitives .default none (initiationFrom 42) (initiationFrom 43)
    (initiationFrom 42 ++ List.replicate 5 0) (initiationFrom 43 ++ List.replicate 5 0)
    (canonical_initiationFrom 42) (canonical_initiationFrom 43) (hlen 42) (hlen 43)
    (List.take_left' (hlen 42)) (List.take_left' (hlen 43)) rfl (hno _ _) (hno _ _)
  rw [hshown 42 (.inl rfl), hshown 43 (.inr rfl)] at hsame
  simp at hsame

end BoringTun.AmneziaConfig

/-! ### Reading a DNS prefix -/

namespace BoringTun.Imitation

theorem byteAt_append (front back : Bytes) (byte : UInt8) :
    byteAt (front ++ byte :: back) front.length = byte.toNat := by
  simp [byteAt]

theorem length_le_dnsLabels (labels : List Bytes) : labels.length ≤ (dnsLabels labels).length := by
  induction labels with
  | nil => exact Nat.le_refl 0
  | cons label labels ih =>
    simp only [dnsLabels, List.flatMap_cons, List.length_append, List.length_cons] at ih ⊢
    omega

/-- A name made of labels is passed over, label by label. -/
theorem qnameEnd_dnsLabels (labels : List Bytes) {front back : Bytes} {fuel qnameLen : Nat}
    (hlabels : ∀ label ∈ labels, label.length ≠ 0 ∧ label.length ≤ 63)
    (hfuel : labels.length < fuel) (hlen : qnameLen + (dnsLabels labels).length + 1 ≤ 255) :
    qnameEnd (front ++ (dnsLabels labels ++ 0x00 :: back)) fuel front.length qnameLen =
      some (front.length + (dnsLabels labels).length + 1) := by
  induction labels generalizing front fuel qnameLen with
  | nil =>
    obtain ⟨fuel, rfl⟩ := Nat.exists_eq_succ_of_ne_zero (Nat.ne_of_gt hfuel)
    have hbyte := byteAt_append front back 0x00
    simp [qnameEnd, dnsLabels, hbyte]
  | cons label labels ih =>
    obtain ⟨fuel, rfl⟩ := Nat.exists_eq_succ_of_ne_zero (Nat.ne_of_gt (Nat.zero_lt_of_lt hfuel))
    obtain ⟨hne, hle⟩ := hlabels label (List.mem_cons_self ..)
    have hsplit : front ++ (dnsLabels (label :: labels) ++ 0x00 :: back) =
        front ++ UInt8.ofNat label.length :: (label ++ (dnsLabels labels ++ 0x00 :: back)) := by
      simp [dnsLabels]
    have hsize : (dnsLabels (label :: labels)).length = 1 + label.length + (dnsLabels labels).length := by
      simp [dnsLabels]
      omega
    have hbyte : byteAt (front ++ (dnsLabels (label :: labels) ++ 0x00 :: back)) front.length =
        label.length := by
      rw [hsplit, byteAt_append, UInt8.toNat_ofNat', Nat.mod_eq_of_lt (by omega)]
    have hplain : label.length &&& 0xc0 = 0 := by
      have hall : ∀ n, n < 64 → n &&& 0xc0 = 0 := by decide
      exact hall _ (by omega)
    -- the label and its length join what stands in front
    have hstep : front ++ (dnsLabels (label :: labels) ++ 0x00 :: back) =
        (front ++ UInt8.ofNat label.length :: label) ++ (dnsLabels labels ++ 0x00 :: back) := by
      rw [hsplit]
      simp
    have hfront : (front ++ UInt8.ofNat label.length :: label).length =
        front.length + 1 + label.length := by
      simp only [List.length_append, List.length_cons]
      omega
    have hroom : ¬ (front ++ (dnsLabels (label :: labels) ++ 0x00 :: back)).length ≤ front.length := by
      simp only [List.length_append, List.length_cons]
      omega
    unfold qnameEnd
    simp only [hbyte, hplain, hroom, ↓reduceIte, ne_eq, not_true_eq_false, hne, if_neg (Nat.not_lt.mpr hle)]
    rw [if_neg (by omega), hstep, ← hfront, ih (fun other hmem => hlabels other (List.mem_cons_of_mem _ hmem))
      (by simpa using hfuel) (by omega), hfront, hsize]
    congr 1
    omega

/-- The question of a query ends where its type and class do. -/
theorem questionEnd_dnsQuery {id qname : Bytes} (additional : UInt8) (rest : Bytes)
    (hid : id.length = 2) (hname : DnsName qname) :
    questionEnd (dnsQuery id additional qname ++ rest) = some (12 + qname.length + 4) := by
  obtain ⟨labels, hlabels, hqname, hle⟩ := hname
  obtain ⟨i₀, i₁, rfl⟩ : ∃ i₀ i₁, id = [i₀, i₁] := List.length_eq_two.mp hid
  have hquery : dnsQuery [i₀, i₁] additional qname ++ rest =
      [i₀, i₁, 0x01, 0x20, 0x00, 0x01, 0x00, 0x00, 0x00, 0x00, 0x00, additional] ++
        (dnsLabels labels ++ 0x00 :: ([0x00, 0x01, 0x00, 0x01] ++ rest)) := by
    simp [dnsQuery, hqname]
  have hqnameLen : qname.length = (dnsLabels labels).length + 1 := by
    simp [hqname]
  have hcount := length_le_dnsLabels labels
  have hend := @qnameEnd_dnsLabels labels
    [i₀, i₁, 0x01, 0x20, 0x00, 0x01, 0x00, 0x00, 0x00, 0x00, 0x00, additional]
    ([0x00, 0x01, 0x00, 0x01] ++ rest) ((dnsQuery [i₀, i₁] additional qname ++ rest).length + 1) 0
    hlabels (by rw [List.length_append, length_dnsQuery hid]; omega) (by omega)
  have hclass : slice (dnsQuery [i₀, i₁] additional qname ++ rest) (12 + qname.length + 2)
      (12 + qname.length + 4) = [0x00, 0x01] := by
    have hback := @slice_append_right
      ([i₀, i₁, 0x01, 0x20, 0x00, 0x01, 0x00, 0x00, 0x00, 0x00, 0x00, additional] ++
        qname ++ [0x00, 0x01]) ([0x00, 0x01] ++ rest) (12 + qname.length + 2)
      (12 + qname.length + 4) (by simp; omega)
    rw [Nat.add_sub_add_left] at hback
    simpa [dnsQuery] using hback
  have hhead : byteAt (dnsQuery [i₀, i₁] additional qname ++ rest) 2 = 0x01 ∧
      byteAt (dnsQuery [i₀, i₁] additional qname ++ rest) 3 = 0x20 ∧
      slice (dnsQuery [i₀, i₁] additional qname ++ rest) 4 6 = [0x00, 0x01] ∧
      slice (dnsQuery [i₀, i₁] additional qname ++ rest) 6 8 = [0x00, 0x00] ∧
      slice (dnsQuery [i₀, i₁] additional qname ++ rest) 8 10 = [0x00, 0x00] := by
    rw [hquery]
    exact ⟨rfl, rfl, rfl, rfl, rfl⟩
  obtain ⟨hflags, hrcode, hquestions, hanswers, hauthorities⟩ := hhead
  have hlen : 12 + qname.length + 4 ≤ (dnsQuery [i₀, i₁] additional qname ++ rest).length := by
    rw [List.length_append, length_dnsQuery hid]
    omega
  have hname : qnameEnd (dnsQuery [i₀, i₁] additional qname ++ rest)
      ((dnsQuery [i₀, i₁] additional qname ++ rest).length + 1) DNS_HEADER_LEN 0 =
      some (12 + qname.length) := by
    rw [← hquery] at hend
    rw [hqnameLen]
    exact hend
  unfold questionEnd
  rw [if_neg (by simp only [DNS_HEADER_LEN]; omega), hflags, hrcode, hquestions, hanswers,
    hauthorities, if_neg (by decide), if_neg (by decide), hname]
  dsimp only
  rw [if_neg (Nat.not_lt.mpr hlen), hclass, if_pos (by decide)]

theorem four_le_questionEnd {query : Bytes} {pos : Nat} (h : questionEnd query = some pos) :
    4 ≤ pos := by
  obtain ⟨nameEnd, -, rfl⟩ := (questionEnd_spec h).name
  exact Nat.le_add_left 4 nameEnd

/-- Where a message with one question carries an OPT record: right behind the question, with
its fixed part and the head of one option within the bytes given. -/
def optAt (message : Bytes) : Option Nat :=
  (questionEnd message).filter fun pos =>
    pos + DNS_OPT_MIN_WIRE_SIZE ≤ message.length ∧ slice message pos (pos + 3) = [0x00, 0x00, 0x29]

theorem optAt_eq_some {message : Bytes} {pos : Nat} : optAt message = some pos ↔
    questionEnd message = some pos ∧ pos + DNS_OPT_MIN_WIRE_SIZE ≤ message.length ∧
      slice message pos (pos + 3) = [0x00, 0x00, 0x29] := by
  simp [optAt, Option.filter_eq_some_iff]

/-- An OPT record at `pos` that accounts for every byte of the datagram: it is counted, and
its data and its one option run to the end. -/
structure OptToEnd (datagram : Bytes) (pos : Nat) : Prop where
  counted : beNat (slice datagram 10 12) = 1
  rdlength : pos + 11 + beNat (slice datagram (pos + 9) (pos + 11)) = datagram.length
  option : pos + 15 + beNat (slice datagram (pos + 13) (pos + 15)) = datagram.length

end BoringTun.Imitation

namespace BoringTun

open Imitation

/-- What an OPT record the filler wrote says: its lengths are those up to `totalLen`. -/
structure OptFields (size totalLen : Nat) (written : Bytes) (pos : Nat) : Prop where
  room : pos + 15 ≤ size
  total : size ≤ totalLen
  counted : beNat (slice written 10 12) = 1
  rdlength : beNat (slice written (pos + 9) (pos + 11)) = totalLen - (pos + 11)
  option : beNat (slice written (pos + 13) (pos + 15)) = totalLen - (pos + 15)

theorem DnsFilled.optFields {size totalLen pos : Nat} {written : Bytes}
    (h : DnsFilled size totalLen written) (hopt : optAt written = some pos) :
    OptFields size totalLen written pos := by
  obtain ⟨hquestion, hroom, hopt⟩ := optAt_eq_some.mp hopt
  cases h with
  | padded id qname pos' optionCode hid hname hpos hroom' htotal hfits hwritten =>
    subst hwritten
    obtain rfl : pos = pos' := by
      rw [questionEnd_dnsQuery 1 _ hid hname, ← hpos] at hquestion
      exact (Option.some.inj hquestion).symm
    simp only [DNS_OPT_MIN_WIRE_SIZE, DNS_OPT_FIXED_LEN] at hroom' hfits
    have hlen : (dnsQuery id 1 qname).length = pos := (length_dnsQuery hid 1 qname).trans hpos.symm
    have hcounted : slice (dnsQuery id 1 qname ++ dnsOpt size totalLen pos optionCode) 10 12 =
        [0x00, 0x01] := by
      obtain ⟨i₀, i₁, rfl⟩ := List.length_eq_two.mp hid
      rfl
    have hrdlength : slice (dnsQuery id 1 qname ++ dnsOpt size totalLen pos optionCode) (pos + 9)
        (pos + 11) = beBytes 2 (totalLen - (pos + 11)) := by
      have hbetween := @slice_between (pos + 9) (pos + 11) (dnsQuery id 1 qname ++
          [0x00, 0x00, 0x29, 0x10, 0x00, 0x00, 0x00, 0x00, 0x00]) (beBytes 2 (totalLen - (pos + 11)))
        (beBytes 2 optionCode ++ (beBytes 2 (totalLen - (pos + 15)) ++
          List.replicate (size - (pos + 15)) 0))
        (by simp [hlen]) (by rw [length_beBytes]; omega)
      simpa [dnsOpt, DNS_OPT_MIN_WIRE_SIZE, DNS_OPT_FIXED_LEN] using hbetween
    have hoption : slice (dnsQuery id 1 qname ++ dnsOpt size totalLen pos optionCode) (pos + 13)
        (pos + 15) = beBytes 2 (totalLen - (pos + 15)) := by
      have hbetween := @slice_between (pos + 13) (pos + 15) (dnsQuery id 1 qname ++
          ([0x00, 0x00, 0x29, 0x10, 0x00, 0x00, 0x00, 0x00, 0x00] ++
            (beBytes 2 (totalLen - (pos + 11)) ++ beBytes 2 optionCode)))
        (beBytes 2 (totalLen - (pos + 15))) (List.replicate (size - (pos + 15)) 0)
        (by simp [hlen]) (by rw [length_beBytes]; omega)
      simpa [dnsOpt, DNS_OPT_MIN_WIRE_SIZE, DNS_OPT_FIXED_LEN] using hbetween
    refine ⟨hroom', htotal, by rw [hcounted]; rfl, ?_, ?_⟩
    · rw [hrdlength, beNat_beBytes (by omega)]
    · rw [hoption, beNat_beBytes (by omega)]
  | root id hid hsize hwritten =>
    subst hwritten
    rw [questionEnd_dnsQuery 0 _ hid dnsName_root] at hquestion
    obtain rfl : 17 = pos := Option.some.inj hquestion
    -- zeros follow the question, and no record
    rw [slice_append_right _ _ (by rw [length_dnsQuery hid]; rfl), List.take_replicate] at hopt
    have hzero : (0x29 : UInt8) ∈ List.replicate (min (17 + 3 - 17) (size - 17)) (0 : UInt8) := by
      rw [hopt]
      decide
    exact absurd (List.eq_of_mem_replicate hzero) (by decide)
  | short hsize hlen =>
    have hfour := four_le_questionEnd hquestion
    simp only [DNS_OPT_MIN_WIRE_SIZE, DNS_OPT_FIXED_LEN] at hroom
    split at hlen <;> omega

end BoringTun

namespace BoringTun.AmneziaConfig

open Imitation

/-- RandomTrailers gives a handshake message a suffix: the caller left room, and the draw over
the lengths the room allows is not 0. -/
def DrawsTrailer (cfg : AmneziaConfig) (kind : PacketKind) (messageLen bufferLen : Nat)
    (room : Option TrailerRoom) (rng : Rng) : Prop :=
  cfg.randomTrailers = true ∧ kind ≠ .transportData ∧ ∃ r, room = some r ∧
    (randomBelow (min (r.udpWindow - (messageLen + cfg.outboundJunkSize kind))
      (min (min bufferLen MAX_SENDABLE_DATAGRAM) r.maxWire -
        (messageLen + cfg.outboundJunkSize kind) + 1)) rng).1 ≠ 0

variable {P : Primitives} {cfg : AmneziaConfig} {obf : ObfuscationRanges} {kind : PacketKind}
variable {packet buffer wire : Bytes} {room : Option TrailerRoom} {rng : Rng} {pos : Nat}

variable (cfg kind room rng) in
theorem trailerLen_ne_zero (messageLen bufferLen : Nat) :
    (cfg.trailerLen kind (messageLen + cfg.outboundJunkSize kind) bufferLen room rng).1 ≠ 0 ↔
      cfg.DrawsTrailer kind messageLen bufferLen room rng := by
  unfold trailerLen DrawsTrailer
  cases room with
  | none => simp
  | some r =>
    by_cases htrailers : cfg.randomTrailers = true <;> by_cases hkind : kind = .transportData <;>
      simp [htrailers, hkind]

/-- What a drawn DNS prefix with an OPT record says of the message it was drawn for. -/
theorem Drawn.optFields {pfx : Bytes} {messageLen : Nat} (hdns : cfg.imitation.protocol = .dns)
    (h : cfg.Drawn messageLen pfx) (hopt : optAt pfx = some pos) :
    OptFields pfx.length (pfx.length + messageLen) pfx pos := by
  obtain ⟨dst, rng, rfl⟩ := h
  rw [length_outboundJunk]
  obtain ⟨written, rng', hfilled, hrun⟩ := cfg.outboundJunk_spec dst.length messageLen rng
  obtain ⟨-, hroom, -⟩ := optAt_eq_some.mp hopt
  rw [length_outboundJunk] at hroom
  simp only [DNS_OPT_MIN_WIRE_SIZE, DNS_OPT_FIXED_LEN] at hroom
  have hwhole : written.length = dst.length := by
    rw [hfilled.length, if_neg]
    rintro ⟨-, hsize⟩
    omega
  rw [hrun dst rfl, List.drop_eq_nil_of_le (by omega), List.append_nil] at hopt ⊢
  exact (hfilled.dns hdns).optFields hopt

/-- **DNS cover.** Where the prefix of a datagram carries an OPT record, the record is counted
and its lengths account for every byte to the end of the datagram, exactly when no
RandomTrailers suffix was drawn. -/
theorem dns_cover (hdns : cfg.imitation.protocol = .dns) (hcanon : Canonical obf kind packet)
    (hbuffer : buffer.take packet.length = packet)
    (hok : (cfg.prependOutboundWithTrailer P obf buffer packet.length room rng).1 = .ok wire)
    (hopt : optAt (wire.take (cfg.outboundJunkSize kind)) = some pos) :
    OptToEnd wire pos ↔ ¬ cfg.DrawsTrailer kind packet.length buffer.length room rng := by
  obtain ⟨-, pfx, suffix, hpfx, hdrawn, -, hsuffix, rfl⟩ :=
    prependOutboundWithTrailer_parts buffer room rng hcanon hbuffer hok
  rw [List.append_assoc, outboundJunkSize, List.take_left' hpfx] at hopt
  obtain ⟨hroom, -, hcounted, hrdlength, hoption⟩ := hdrawn.optFields hdns hopt
  rw [List.append_assoc]
  generalize hback : cfg.headerProtection.masked P pfx packet (maskedLen kind packet.length) ++
    suffix = back
  have hlen : (pfx ++ back).length = pfx.length + packet.length + suffix.length := by
    rw [← hback, List.length_append, List.length_append, HeaderProtectionKey.length_masked,
      Nat.add_assoc]
  have hwithin : ∀ {lo hi : Nat}, hi ≤ pos + 15 → slice (pfx ++ back) lo hi = slice pfx lo hi :=
    fun hle => slice_append_left _ _ (Nat.le_trans hle hroom)
  have hten : 12 ≤ pos + 15 := by
    have := four_le_questionEnd (optAt_eq_some.mp hopt).1
    omega
  have htrailer := cfg.trailerLen_ne_zero kind room rng packet.length buffer.length
  rw [outboundJunkSize, ← hsuffix] at htrailer
  rw [← htrailer, not_not]
  constructor
  · intro h
    have hend := h.rdlength
    rw [hwithin (by omega), hrdlength, hlen] at hend
    omega
  · intro hnone
    refine ⟨by rw [hwithin hten, hcounted], ?_, ?_⟩
    · rw [hwithin (by omega), hrdlength, hlen]
      omega
    · rw [hwithin (Nat.le_refl _), hoption, hlen]
      omega

section

/-- DNS cover with RandomTrailers. -/
def dnsTrailers : AmneziaConfig where
  initPacketJunkSize := 64
  randomTrailers := true
  imitation := { protocol := .dns, domain := some (ascii "example.com") }

/-- An initiation under it, with room for a hundred bytes more. -/
def dnsInitiation (rng : Rng) : Result Bytes :=
  (dnsTrailers.prependOutboundWithTrailer termPrimitives .default
    (initiationFrom 42 ++ List.replicate 164 0) (initiationFrom 42).length
    (some { udpWindow := 500, maxWire := 2000 }) rng).1

def sevensRng : Rng where
  words _ := 7
  pos := 0
  gap _ := 0
  fair _ := ⟨0, Nat.le_refl 0, by decide⟩

/-- Where a suffix is drawn, the OPT record ends with the message and the suffix stands behind
the DNS message: 79 bytes that no length accounts for. -/
theorem trailer_outruns_opt : ∃ wire, dnsInitiation sevensRng = .ok wire ∧
    optAt (wire.take 64) = some 33 ∧ wire.length = 291 ∧
    33 + 11 + beNat (slice wire (33 + 9) (33 + 11)) = 212 ∧ ¬ OptToEnd wire 33 := by
  have hsent : (dnsInitiation sevensRng).map (fun wire => (optAt (wire.take 64), wire.length,
      33 + 11 + beNat (slice wire (33 + 9) (33 + 11)))) = .ok (some 33, 291, 212) := by
    decide +kernel
  cases hwire : dnsInitiation sevensRng with
  | error e =>
    rw [hwire] at hsent
    cases hsent
  | ok wire =>
    rw [hwire] at hsent
    simp only [Except.map, Except.ok.injEq, Prod.mk.injEq] at hsent
    obtain ⟨hopt, hlen, hrdlength⟩ := hsent
    refine ⟨wire, rfl, hopt, hlen, hrdlength, fun h => ?_⟩
    have hend := h.rdlength
    omega

/-- A draw of 0 leaves the record at the end of the datagram. -/
theorem dns_cover_untrailed : ∃ wire, dnsInitiation zeroRng = .ok wire ∧
    optAt (wire.take 64) = some 33 ∧ OptToEnd wire 33 := by
  have hsent : (dnsInitiation zeroRng).map (fun wire => optAt (wire.take 64)) = .ok (some 33) := by
    decide +kernel
  cases hwire : dnsInitiation zeroRng with
  | error e =>
    rw [hwire] at hsent
    cases hsent
  | ok wire =>
    rw [hwire] at hsent
    have hopt : optAt (wire.take 64) = some 33 := Except.ok.inj hsent
    have hlen : (initiationFrom 42).length = HANDSHAKE_INIT_SZ := by
      simp [initiationFrom, HANDSHAKE_INIT_SZ]
    refine ⟨wire, rfl, hopt, ?_⟩
    refine (dns_cover rfl (canonical_initiationFrom 42) (List.take_left' rfl) hwire hopt).mpr ?_
    rintro ⟨-, -, r, hr, hdraw⟩
    obtain rfl := Option.some.inj hr
    exact hdraw (by rw [hlen]; decide +kernel)

end

end BoringTun.AmneziaConfig

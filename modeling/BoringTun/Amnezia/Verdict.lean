import BoringTun.Amnezia.Cover
import BoringTun.Imitation.DnsGrammar

/-!
What the detector of probes makes of the client's own traffic (`noise/amnezia.rs` against
`noise/imitation/detect.rs`): the verdict rests on the first bytes of the prefix, whatever the
message behind it. A DNS or SIP prefix of some length is a probe, a STUN one never is, and a
QUIC one is neither a QUIC nor a STUN probe (`cover_verdict`).
-/

namespace BoringTun

open Filler Imitation

/-! ### What a slice begins with -/

/-- The slice is known in full, and begins with `head`. -/
structure Begins (n : Nat) (head known : Bytes) : Prop where
  length : known.length = n
  take : known.take head.length = head

section

variable {n pos : Nat} {head known new : Bytes} {rng : Rng}

theorem Begins.append_drop (h : Begins n head known) : known = head ++ known.drop head.length := by
  conv_lhs => rw [← List.take_append_drop head.length known, h.take]

theorem Begins.of_append {more : Bytes} (h : Begins n (head ++ more) known) : Begins n head known := by
  refine ⟨h.length, ?_⟩
  have htake := congrArg (List.take head.length) h.take
  rwa [List.take_take, Nat.min_eq_left (by simp), List.take_left] at htake

/-- A write behind the head leaves it alone. -/
theorem Begins.writeBehind (h : Begins n head known) (hpos : head.length ≤ pos)
    (hroom : pos + new.length ≤ n) :
    Yields n known rng (write pos new) fun _ known' _ => Begins n head known' := by
  have hlen := h.length
  refine (Yields.write (by omega) hroom).mono fun _ known' _ hknown => ⟨by omega, ?_⟩
  rw [hknown.1, overwrite, List.append_assoc, List.take_append_of_le_length, List.take_take,
    Nat.min_eq_left hpos, h.take]
  rw [List.length_take]
  omega

/-- A write right behind the head lengthens it. -/
theorem Begins.writeOnto (h : Begins n head known) (hpos : pos = head.length)
    (hroom : pos + new.length ≤ n) :
    Yields n known rng (write pos new) fun _ known' _ => Begins n (head ++ new) known' := by
  have hlen := h.length
  refine (Yields.write (by omega) hroom).mono fun _ known' _ hknown => ⟨by omega, ?_⟩
  subst hpos
  rw [hknown.1, overwrite, h.take, List.take_left' rfl]

theorem Begins.randomBehind {stop : Nat} (h : Begins n head known) (hpos : head.length ≤ pos)
    (hle : pos ≤ n) (hstop : stop ≤ n) :
    Yields n known rng (fillRandomBytes pos stop) fun _ known' _ => Begins n head known' := by
  refine .bind (.randomBytes _) ?_
  rintro run _ rng₁ ⟨hrun, rfl⟩
  exact h.writeBehind hpos (by omega)

theorem Begins.guarded {test : Prop} [Decidable test] {prog : Filler Unit}
    (h : Begins n head known)
    (hprog : test → Yields n known rng prog fun _ known' _ => Begins n head known') :
    Yields n known rng (Filler.guarded test prog) fun _ known' _ => Begins n head known' :=
  .guarded hprog fun _ => h

theorem fillRandom_begins : Yields n known rng fillRandom fun _ known' _ => Begins n [] known' :=
  fillRandom_yields.mono fun _ _ _ hlen => ⟨hlen, rfl⟩

end

/-! ### STUN and QUIC -/

section

variable {n : Nat} {rng : Rng}

/-- The header of a request, as far as the cookie. -/
def stunHead (size : Nat) : Bytes := [0x00, 0x01] ++ beBytes 2 (stunAttrLen size) ++ STUN_MAGIC_COOKIE

theorem fillStun_begins (hn : 8 ≤ n) :
    Yields n [] rng fillStun fun _ known' _ => Begins n (stunHead n) known' := by
  refine .bind fillRandom_begins fun _ known₁ rng₁ h₁ => .bind .size ?_
  rintro _ _ rng₂ ⟨rfl, rfl⟩
  refine .bind (.guarded (fun _ => h₁.writeOnto rfl (by simp; omega)) (by omega))
    fun _ known₂ rng₂ h₂ => ?_
  refine .bind (.guarded (fun _ => h₂.writeOnto rfl (by simp; omega)) (by omega))
    fun _ known₃ rng₃ h₃ => ?_
  refine .bind (.guarded (fun _ => h₃.writeOnto rfl hn) (by omega)) fun _ known₄ rng₄ h₄ => ?_
  change Begins _ (stunHead _) known₄ at h₄
  refine .bind (h₄.guarded fun h => h₄.randomBehind (Nat.le_refl 8) (by omega) (by omega))
    fun _ known₅ rng₅ h₅ => ?_
  refine .bind (h₅.guarded fun h => ?_) fun _ known₆ rng₆ h₆ => ?_
  · have hattr := stunAttrLen_le h
    refine .bind (h₅.writeBehind (show 8 ≤ 20 by decide)
      (Nat.le_trans (Nat.le_add_right 24 _) hattr)) fun _ known₆ rng₆ h₆ => ?_
    refine .bind (.randomBytes _) ?_
    rintro value _ rng₇ ⟨hvalue, rfl⟩
    exact h₆.writeBehind (show 8 ≤ 24 by decide) (by rwa [List.length_map, hvalue])
  · exact h₆.guarded fun h => h₆.randomBehind (show 8 ≤ 20 + _ by omega) h (Nat.le_refl _)

/-- A short header: the first two bits are 01. -/
theorem fillQuicShort_begins (hn : n ≠ 0) :
    Yields n [] rng fillQuicShort fun _ known' _ => ∃ first : UInt8,
      Begins n [first] known' ∧ 0x40 ≤ first.toNat ∧ first.toNat < 0x80 := by
  refine .bind .size ?_
  rintro _ _ rng₀ ⟨rfl, rfl⟩
  refine .guarded (fun _ => ?_) (absurd hn)
  refine .bind .word ?_
  rintro spin _ rng₁ rfl
  refine .bind .word ?_
  rintro keyPhase _ rng₂ rfl
  refine .bind .word ?_
  rintro pnLen _ rng₃ rfl
  refine .bind (.append rfl (Nat.pos_of_ne_zero hn)) ?_
  rintro _ _ rng₄ rfl
  refine .bind (.randomBytes _) ?_
  rintro run _ rng₅ ⟨hrun, rfl⟩
  refine (Yields.append rfl (show 1 + run.length ≤ _ by omega)).mono fun _ known' _ hknown => ?_
  have hspin := Nat.mod_lt (spin / 256) (show 0 < 2 by decide)
  have hphase := Nat.mod_lt (keyPhase / 256) (show 0 < 2 by decide)
  have hlen := Nat.mod_lt pnLen (show 0 < 4 by decide)
  refine ⟨_, ⟨?_, by rw [hknown]; rfl⟩, ?_⟩
  · rw [hknown, List.length_append, hrun]
    exact Nat.add_sub_cancel' (Nat.pos_of_ne_zero hn)
  · rw [UInt8.toNat_ofNat', Nat.mod_eq_of_lt (by omega)]
    omega

end

/-! ### SIP -/

section

variable {n pos : Nat} {head known : Bytes} {rng : Rng}

/-- A line that is put behind the head. -/
theorem Begins.putSipLine (h : Begins n head known) (hpos : head.length ≤ pos) (line : Bytes) :
    Yields n known rng (putSipLine pos line) fun next known' _ => Begins n head known' ∧
      ∀ p, next = some p → head.length ≤ p ∧ p + 2 ≤ n := by
  refine .bind .size ?_
  rintro _ _ rng₁ ⟨rfl, rfl⟩
  refine .ite (fun _ => .pure ⟨h, nofun⟩) fun hfit => ?_
  refine .bind (h.writeBehind hpos (by omega)) fun _ known₁ rng₂ h₁ => .pure ⟨h₁, ?_⟩
  rintro p ⟨⟩
  omega

theorem Begins.putSipLines (h : Begins n head known) (hpos : head.length ≤ pos) (hroom : pos + 2 ≤ n)
    (lines : List Bytes) :
    Yields n known rng (putSipLines pos lines) fun next known' _ => Begins n head known' ∧
      head.length ≤ next ∧ next + 2 ≤ n := by
  induction lines generalizing pos known rng with
  | nil => exact .pure ⟨h, hpos, hroom⟩
  | cons line lines ih =>
    refine .bind (h.putSipLine hpos line) fun next known₁ rng₁ hnext => ?_
    cases next with
    | none => exact .pure ⟨hnext.1, hpos, hroom⟩
    | some p => exact ih hnext.1 (hnext.2 p rfl).1 (hnext.2 p rfl).2

theorem Begins.endSip (h : Begins n head known) (hpos : head.length ≤ pos) (hroom : pos + 2 ≤ n) :
    Yields n known rng (endSip pos) fun done known' _ => done = true ∧ Begins n head known' := by
  refine .bind .size ?_
  rintro _ _ rng₁ ⟨rfl, rfl⟩
  refine .bind (h.writeBehind hpos hroom) fun _ known₁ rng₂ h₁ => ?_
  refine .bind (h₁.writeBehind (Nat.le_add_right_of_le hpos) ?_) fun _ known₂ rng₃ h₂ => .pure ⟨rfl, h₂⟩
  simp only [List.length_replicate]
  omega

/-- The first line of a request. -/
def sipRequestLine (method user host : Bytes) : Bytes :=
  method ++ ascii " sip:" ++ (user ++ ascii "@" ++ host) ++ ascii " SIP/2.0" ++ crlf

theorem putSipLine_first (hwhole : known.length = n) (line : Bytes) :
    Yields n known rng (putSipLine 0 line) fun next known' _ =>
      (next = none ∧ known'.length = n ∧ n < line.length + 2) ∨
      (next = some line.length ∧ Begins n line known' ∧ line.length + 2 ≤ n) := by
  have hempty : Begins n [] known := ⟨hwhole, rfl⟩
  refine .bind .size ?_
  rintro _ _ rng₁ ⟨rfl, rfl⟩
  refine .ite (fun hover => .pure (.inl ⟨rfl, hwhole, by omega⟩)) fun hfit => ?_
  refine .bind (hempty.writeOnto rfl (by omega)) fun _ known₁ rng₂ h₁ => .pure (.inr ⟨?_, h₁, ?_⟩)
  · rw [Nat.zero_add]
  · omega

/-- A request that is written begins with its line; one that need not have a `Via` is written if
its line fits. -/
theorem emitSip_begins (hwhole : known.length = n) (method user host : Bytes) (requireVia : Bool) :
    Yields n known rng (emitSip method user host requireVia) fun done known' _ =>
      known'.length = n ∧
      (done = true → Begins n (sipRequestLine method user host) known') ∧
      (done = false → requireVia = true ∨ n < (sipRequestLine method user host).length + 2) := by
  refine .bind .word ?_
  rintro token _ rng₁ rfl
  refine .bind (putSipLine_first hwhole _) fun next known₁ rng₂ hnext => ?_
  rcases hnext with ⟨rfl, hlen, hover⟩ | ⟨rfl, hbegins, hroom⟩
  · exact .pure ⟨hlen, nofun, fun _ => .inr hover⟩
  have hdone : ∀ {prog : Filler Bool} {known₂ : Bytes} {rng₃ : Rng},
      Yields n known₂ rng₃ prog (fun done known' _ => done = true ∧
        Begins n (sipRequestLine method user host) known') →
      Yields n known₂ rng₃ prog fun done known' _ => known'.length = n ∧
        (done = true → Begins n (sipRequestLine method user host) known') ∧
        (done = false → requireVia = true ∨ n < (sipRequestLine method user host).length + 2) := by
    intro prog known₂ rng₃ h
    refine h.mono fun done known' _ hpost => ⟨hpost.2.length, fun _ => hpost.2, ?_⟩
    intro hfalse
    rw [hpost.1] at hfalse
    cases hfalse
  refine .bind (hbegins.putSipLine (Nat.le_refl _) _) fun via known₂ rng₃ hvia => ?_
  cases via with
  | none =>
    exact .ite (fun hrequired => .pure ⟨hvia.1.length, nofun, fun _ => .inl hrequired⟩)
      fun _ => hdone (hvia.1.endSip (Nat.le_refl _) hroom)
  | some pos =>
    obtain ⟨hpos, hposRoom⟩ := hvia.2 pos rfl
    refine hdone (.bind (hvia.1.putSipLines hpos hposRoom _) fun next known₃ rng₄ hlines => ?_)
    exact hlines.1.endSip hlines.2.1 hlines.2.2

/-- The first of the candidates that is written. If they need no `Via`, one of which the line
fits is enough. -/
theorem firstSip_begins (hwhole : known.length = n) (requireVia : Bool)
    (candidates : List (Bytes × Bytes × Bytes)) :
    Yields n known rng (firstSip requireVia candidates) fun done known' _ =>
      known'.length = n ∧
      (done = true → ∃ c ∈ candidates, Begins n (sipRequestLine c.1 c.2.1 c.2.2) known') ∧
      (done = false → requireVia = true ∨
        ∀ c ∈ candidates, n < (sipRequestLine c.1 c.2.1 c.2.2).length + 2) := by
  induction candidates generalizing known rng with
  | nil => exact .pure ⟨hwhole, nofun, fun _ => .inr (List.forall_mem_nil _)⟩
  | cons candidate rest ih =>
    refine .bind (emitSip_begins hwhole _ _ _ _) fun done known₁ rng₁ h₁ => ?_
    refine .ite (fun hdone => .pure ⟨h₁.1, fun _ => ?_, nofun⟩) fun hdone => ?_
    · exact ⟨candidate, List.mem_cons_self, h₁.2.1 hdone⟩
    · refine (ih h₁.1).mono fun done' known' _ hpost => ⟨hpost.1, fun hdone' => ?_, fun hnone => ?_⟩
      · obtain ⟨c, hmem, hbegins⟩ := hpost.2.1 hdone'
        exact ⟨c, List.mem_cons_of_mem _ hmem, hbegins⟩
      · have hfirst := h₁.2.2 (Bool.eq_false_iff.mpr hdone)
        rcases hpost.2.2 hnone with hvia | hrest
        · exact .inl hvia
        · rcases hfirst with hvia | hfirst
          · exact .inl hvia
          · exact .inr (List.forall_mem_cons.mpr ⟨hfirst, hrest⟩)

/-- The requests the fillers choose from. -/
def sipCandidates (seed : Bytes × Bytes × Bytes) (domain : Option Bytes) :
    List (Bytes × Bytes × Bytes) :=
  (match domain with
    | none => []
    | some domain =>
      [(seed.1, seed.2.1, seed.2.2 ++ ascii "." ++ domain), (seed.1, seed.2.1, domain),
        (ascii "OPTIONS", ascii "u", ascii "x." ++ domain), (ascii "OPTIONS", ascii "u", domain)]) ++
  [seed, (ascii "OPTIONS", ascii "u", ascii "x")]

theorem method_of_mem_sipCandidates {seed c : Bytes × Bytes × Bytes} {domain : Option Bytes}
    (h : c ∈ sipCandidates seed domain) : c.1 = seed.1 ∨ c.1 = ascii "OPTIONS" := by
  cases domain with
  | none =>
    simp only [sipCandidates, List.nil_append, List.mem_cons, List.not_mem_nil, or_false] at h
    rcases h with rfl | rfl
    · exact .inl rfl
    · exact .inr rfl
  | some domain =>
    simp only [sipCandidates, List.cons_append, List.nil_append, List.mem_cons, List.not_mem_nil,
      or_false] at h
    rcases h with rfl | rfl | rfl | rfl | rfl | rfl
    · exact .inl rfl
    · exact .inl rfl
    · exact .inr rfl
    · exact .inr rfl
    · exact .inl rfl
    · exact .inr rfl

/-- Whichever candidate is written, its line begins with its method and a blank. -/
theorem exists_method {seed : Bytes × Bytes × Bytes} {domain : Option Bytes}
    (hseed : seed.1 ++ ascii " " ∈ SIP_PREFIXES) (h : ∃ c ∈ sipCandidates seed domain,
      Begins n (sipRequestLine c.1 c.2.1 c.2.2) known) :
    ∃ method ∈ SIP_PREFIXES, Begins n method known := by
  obtain ⟨c, hmem, hbegins⟩ := h
  have hline : sipRequestLine c.1 c.2.1 c.2.2 = (c.1 ++ ascii " ") ++ (ascii "sip:" ++
      (c.2.1 ++ ascii "@" ++ c.2.2) ++ ascii " SIP/2.0" ++ crlf) := by
    rw [sipRequestLine, show ascii " sip:" = ascii " " ++ ascii "sip:" from rfl]
    simp only [List.append_assoc]
  rw [hline] at hbegins
  refine ⟨c.1 ++ ascii " ", ?_, hbegins.of_append⟩
  rcases method_of_mem_sipCandidates hmem with heq | heq
  · rwa [heq]
  · rw [heq]
    decide

/-- A prefix that has room for a request line begins with a method. -/
theorem fillSip_begins (hn : SIP_REQUEST_LINE_MIN ≤ n) (domain : Option Bytes) :
    Yields n [] rng (fillSip domain) fun _ known' _ =>
      ∃ method ∈ SIP_PREFIXES, Begins n method known' := by
  have hseeds : ∀ i < SIP_SEEDS.length,
      (SIP_SEEDS.getD i ([], [], [])).1 ++ ascii " " ∈ SIP_PREFIXES := by
    decide
  refine .bind fillRandom_yields fun _ known₁ rng₁ h₁ => .bind .size ?_
  rintro _ _ rng₂ ⟨rfl, rfl⟩
  refine .guarded (fun _ => ?_) (absurd hn)
  refine .bind .word ?_
  rintro choice _ rng₃ rfl
  have hseed := hseeds _ (Nat.mod_lt choice (by decide))
  generalize SIP_SEEDS.getD (choice % SIP_SEEDS.length) ([], [], []) = seed at hseed ⊢
  refine .bind (firstSip_begins h₁ true (sipCandidates seed domain)) fun done known₂ rng₄ h₂ => ?_
  refine .ite (fun hdone => .pure (exists_method hseed (h₂.2.1 hdone))) fun _ => ?_
  refine .bind (firstSip_begins h₂.1 false (sipCandidates seed domain)) fun done known₃ rng₅ h₃ => ?_
  refine .pure (exists_method hseed (h₃.2.1 ?_))
  -- the last candidate fits
  by_contra hnone
  rcases h₃.2.2 (Bool.eq_false_iff.mpr hnone) with hvia | hover
  · cases hvia
  · have hlast := hover (ascii "OPTIONS", ascii "u", ascii "x") (by simp [sipCandidates])
    have hline : (sipRequestLine (ascii "OPTIONS") (ascii "u") (ascii "x")).length = 25 := by decide
    simp only [SIP_REQUEST_LINE_MIN] at hn
    rw [hline] at hlast
    omega

end

/-! ### Verdicts on a prefix, whatever is behind it -/

section

variable {n : Nat} {pfx rest : Bytes}

theorem detect_of_dnsFilled {totalLen : Nat} (h : DnsFilled n totalLen pfx) (hn : 17 ≤ n) :
    detect (pfx ++ rest) = some .dns := by
  have hquery : ∀ (id : Bytes) (additional : UInt8) (qname more : Bytes), id.length = 2 →
      DnsName qname → detect (dnsQuery id additional qname ++ more) = some .dns := by
    intro id additional qname more hid hname
    obtain ⟨i₀, i₁, rfl⟩ := List.length_eq_two.mp hid
    obtain ⟨labels, hlabels, rfl, hshort⟩ := hname.ex
    rw [detect_eq_some, takes, Bool.false_and, Bool.not_false, Bool.true_and]
    have hsome := @Imitation.Dns.questionEnd_of_labels i₀ i₁ 0x01 0x20 0 additional 0 1 labels
      (by decide) (by decide) (fun label hmem => ⟨Nat.pos_of_ne_zero (hlabels label hmem).1,
        (hlabels label hmem).2⟩) (by simpa using hshort) more
    simpa [dnsQuery] using hsome
  cases h with
  | padded id qname pos optionCode hid hname hpos hroom htotal hfits hwritten =>
    rw [hwritten, List.append_assoc]
    exact hquery id 1 qname _ hid hname
  | root id hid hsize hwritten =>
    rw [hwritten, List.append_assoc]
    exact hquery id 0 [0x00] _ hid ⟨[], List.forall_mem_nil _, rfl, by decide⟩
  | short hsize hlen => omega

theorem detect_of_method_begins {method : Bytes} (hmem : method ∈ SIP_PREFIXES)
    (h : Begins n method pfx) : detect (pfx ++ rest) = some .sip := by
  rw [h.append_drop, List.append_assoc, detect_eq_some]
  exact startsLikeSip_append hmem _

/-- The length a STUN prefix declares ends within it, or at the header it does not hold. -/
theorem detect_of_stunHead (h : Begins n (stunHead n) pfx) (hlong : 20 < n + rest.length)
    (hrest : rest ≠ []) : detect (pfx ++ rest) = none := by
  have hlength := h.length
  have hbehind := List.length_pos_iff.mpr hrest
  have hattr : stunAttrLen n = 0 ∨ 20 + stunAttrLen n ≤ n := by
    by_cases hbody : 4 ≤ stunBody n
    · have hle := @stunAttrLen_le n (by rw [stunAttrLen, if_pos hbody]; exact Nat.le_add_right _ _)
      rw [stunAttrLen, if_pos hbody]
      omega
    · exact .inl (if_neg hbody)
  have hshort : stunAttrLen n < 256 ^ 2 := by
    unfold stunAttrLen stunValueLen
    split <;> omega
  have hdata : pfx ++ rest = stunHead n ++ (pfx.drop 8 ++ rest) := by
    conv_lhs => rw [h.append_drop]
    rw [List.append_assoc]
    rfl
  refine detect_eq_none ?_ ?_ (.inl ⟨?_, ?_⟩) (startsLikeSip_eq_false (by decide : 0 < 3)
    (show _ = some 0x00 by rw [hdata]; rfl) (by decide))
  · refine parseLongHeader_of_form ?_
    rw [hdata]
    exact (show (0 : Nat) &&& 0xc0 ≠ 0xc0 by decide)
  · refine Option.not_isSome_iff_eq_none.mp fun hsome => ?_
    obtain ⟨-, -, -, -, hframed⟩ := bindingRequestLen_isSome.mp hsome
    have hdeclared : beNat (slice (pfx ++ rest) 2 4) = stunAttrLen n := by
      rw [hdata]
      exact beNat_beBytes hshort
    rw [hdeclared, List.length_append, hlength] at hframed
    simp only [STUN_HEADER_LEN] at hframed
    omega
  · rw [hdata, List.length_append]
    exact Nat.le_add_right 8 _
  · rw [hdata]
    rfl

theorem detect_of_shortHeader {first : UInt8} (h : Begins n [first] pfx) (hlow : 0x40 ≤ first.toNat)
    (hhigh : first.toNat < 0x80) :
    detect (pfx ++ rest) ≠ some .quic ∧ detect (pfx ++ rest) ≠ some .stun := by
  rw [h.append_drop, List.append_assoc]
  have hfirst : byteAt ([first] ++ (pfx.drop 1 ++ rest)) 0 = first.toNat := rfl
  refine ⟨fun hquic => ?_, fun hstun => ?_⟩
  · have hbits := quic_byteAt (detect_eq_some.mp hquic)
    change 0xc0 ≤ first.toNat at hbits
    omega
  · have hzero := (stun_byteAt (detect_eq_some.mp hstun)).1
    change first.toNat = 0 at hzero
    omega

end

/-! ### Framed messages -/

namespace AmneziaConfig

variable {P : Primitives} {cfg : AmneziaConfig} {obf : ObfuscationRanges} {kind : PacketKind}

/-- What a filler that writes the whole slice is known to leave holds of a drawn prefix. -/
theorem Drawn.post {messageLen : Nat} {pfx : Bytes} (h : cfg.Drawn messageLen pfx)
    (post : Bytes → Prop)
    (hyields : ∀ rng, Yields pfx.length [] rng (cfg.fillOutboundJunk messageLen) fun _ known _ =>
      known.length = pfx.length ∧ post known) : post pfx := by
  obtain ⟨dst, rng, hpfx⟩ := h
  have hlength : pfx.length = dst.length := by
    rw [hpfx, length_outboundJunk]
  obtain ⟨written, rng', ⟨hwritten, hpost⟩, -, hrun⟩ :=
    exec_yields (hyields rng) (cfg.fillOutboundJunk_keeps messageLen)
  have hwhole : pfx = written := by
    rw [hpfx, outboundJunk, hrun dst hlength.symm, List.drop_eq_nil_of_le (by omega),
      List.append_nil]
  rwa [hwhole]

/-- **The detector on cover traffic.** A DNS prefix of 17 bytes and a SIP prefix of 31 make a
datagram a probe of their protocol; no STUN prefix that holds the cookie makes it one of any, and
a QUIC prefix makes it one of neither QUIC nor STUN. -/
theorem cover_verdict (buffer : Bytes) (packetSize : Nat) (room : Option TrailerRoom) (rng : Rng)
    (hkind : classifyOutbound obf (buffer.take packetSize) = some kind) {wire : Bytes}
    (hok : (cfg.prependOutboundWithTrailer P obf buffer packetSize room rng).1 = .ok wire) :
    (cfg.imitation.protocol = .dns → 17 ≤ cfg.outboundJunkSize kind → detect wire = some .dns) ∧
    (cfg.imitation.protocol = .sip → 31 ≤ cfg.outboundJunkSize kind → detect wire = some .sip) ∧
    (cfg.imitation.protocol = .stun → 8 ≤ cfg.outboundJunkSize kind → detect wire = none) ∧
    (cfg.imitation.protocol = .quic → 0 < cfg.outboundJunkSize kind →
      detect wire ≠ some .quic ∧ detect wire ≠ some .stun) := by
  have hcanon := canonical_of_classifyOutbound hkind
  have hsize : packetSize ≤ buffer.length := by
    by_contra hshort
    rw [prependOutboundWithTrailer, if_pos (Nat.not_le.mp hshort)] at hok
    cases hok
  have hlength : (buffer.take packetSize).length = packetSize := by
    rw [List.length_take, Nat.min_eq_left hsize]
  generalize hpacket : buffer.take packetSize = packet at hcanon hlength
  subst hlength
  obtain ⟨-, pfx, suffix, hpfx, hdrawn, -, -, rfl⟩ :=
    prependOutboundWithTrailer_parts buffer room rng hcanon hpacket hok
  rw [outboundJunkSize, ← hpfx, List.append_assoc]
  generalize hrest : cfg.headerProtection.masked P pfx packet (maskedLen kind packet.length) ++
    suffix = rest
  have hlong : 32 ≤ rest.length := by
    rw [← hrest, List.length_append, HeaderProtectionKey.length_masked]
    exact Nat.le_trans hcanon.atLeast (Nat.le_add_right _ _)
  refine ⟨fun hprotocol hn => ?_, fun hprotocol hn => ?_, fun hprotocol hn => ?_,
    fun hprotocol hn => ?_⟩
  · have hfilled : DnsFilled pfx.length (pfx.length + packet.length) pfx := by
      refine hdrawn.post (DnsFilled pfx.length (pfx.length + packet.length)) fun rng => ?_
      rw [fillOutboundJunk_eq, hprotocol]
      refine (fillDns_yields _ _).mono fun _ known _ hdns => ⟨?_, hdns⟩
      rw [hdns.length, if_neg (by omega)]
    exact detect_of_dnsFilled hfilled hn
  · obtain ⟨method, hmem, hbegins⟩ : ∃ method ∈ SIP_PREFIXES, Begins pfx.length method pfx := by
      refine hdrawn.post (fun known => ∃ method ∈ SIP_PREFIXES, Begins pfx.length method known)
        fun rng => ?_
      rw [fillOutboundJunk_eq, hprotocol]
      refine (fillSip_begins hn _).mono fun _ known _ hsip => ⟨?_, hsip⟩
      obtain ⟨method, -, hbegins⟩ := hsip
      exact hbegins.length
    exact detect_of_method_begins hmem hbegins
  · have hbegins : Begins pfx.length (stunHead pfx.length) pfx := by
      refine hdrawn.post (Begins pfx.length (stunHead pfx.length)) fun rng => ?_
      rw [fillOutboundJunk_eq, hprotocol]
      exact (fillStun_begins hn).mono fun _ known _ hstun => ⟨hstun.length, hstun⟩
    exact detect_of_stunHead hbegins (by omega) (List.length_pos_iff.mp (by omega))
  · obtain ⟨first, hbegins, hlow, hhigh⟩ : ∃ first : UInt8, Begins pfx.length [first] pfx ∧
        0x40 ≤ first.toNat ∧ first.toNat < 0x80 := by
      refine hdrawn.post (fun known => ∃ first : UInt8, Begins pfx.length [first] known ∧
        0x40 ≤ first.toNat ∧ first.toNat < 0x80) fun rng => ?_
      rw [fillOutboundJunk_eq, hprotocol]
      refine (fillQuicShort_begins (Nat.ne_of_gt hn)).mono fun _ known _ hquic => ⟨?_, hquic⟩
      obtain ⟨first, hbegins, -⟩ := hquic
      exact hbegins.length
    exact detect_of_shortHeader hbegins hlow hhigh

/-- Initiations behind a STUN prefix of 28 bytes. -/
def stunCover : AmneziaConfig where
  initPacketJunkSize := 28
  imitation := { protocol := .stun }

theorem cover_verdict_stunCover : ∃ wire,
    (stunCover.prependOutboundWithTrailer termPrimitives .default
      (initiationFrom 42 ++ List.replicate 64 0) HANDSHAKE_INIT_SZ none zeroRng).1 = .ok wire ∧
    detect wire = none := by
  have hsent : ((stunCover.prependOutboundWithTrailer termPrimitives .default
      (initiationFrom 42 ++ List.replicate 64 0) HANDSHAKE_INIT_SZ none zeroRng).1.map
        List.length) = .ok 176 := by
    decide +kernel
  cases hwire : (stunCover.prependOutboundWithTrailer termPrimitives .default
      (initiationFrom 42 ++ List.replicate 64 0) HANDSHAKE_INIT_SZ none zeroRng).1 with
  | error e =>
    rw [hwire] at hsent
    cases hsent
  | ok wire =>
    have hkind : classifyOutbound .default
        ((initiationFrom 42 ++ List.replicate 64 0).take HANDSHAKE_INIT_SZ) =
          some .handshakeInit := by
      decide +kernel
    exact ⟨wire, rfl, (cover_verdict _ _ _ _ hkind hwire).2.2.1 rfl (by decide)⟩

end AmneziaConfig

end BoringTun

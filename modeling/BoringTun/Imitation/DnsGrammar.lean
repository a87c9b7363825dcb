import BoringTun.Imitation.Exclusive

/-!
DNS messages as a resolver reads them, and the parser of `noise/imitation/dns.rs` against them.

`Header` and `Question` are the fields of a query, `encode` their bytes on the wire.
`questionEnd` accepts what is encoded so, and nothing else (`question_grammar`), and the answer
to a query is a message of the same grammar (`servfail_encode`). `Indexed.questionEnd` is the
parser with every index checked: it never leaves the datagram (`Indexed.questionEnd_eq`).
-/

namespace BoringTun.Imitation.Dns

/-! ### Messages -/

/-- The fields of a header, RFC 1035 §4.1.1 with the bits AD and CD of RFC 4035. -/
structure Header where
  id : UInt16
  qr : Bool
  opcode : BitVec 4
  aa : Bool
  tc : Bool
  rd : Bool
  ra : Bool
  z : Bool
  ad : Bool
  cd : Bool
  rcode : BitVec 4
  qdcount : UInt16
  ancount : UInt16
  nscount : UInt16
  arcount : UInt16

def Header.encode (header : Header) : Bytes :=
  beBytes 2 header.id.toNat ++
    [UInt8.ofNat (128 * header.qr.toNat + 8 * header.opcode.toNat + 4 * header.aa.toNat +
        2 * header.tc.toNat + header.rd.toNat),
      UInt8.ofNat (128 * header.ra.toNat + 64 * header.z.toNat + 32 * header.ad.toNat +
        16 * header.cd.toNat + header.rcode.toNat)] ++
    beBytes 2 header.qdcount.toNat ++ beBytes 2 header.ancount.toNat ++
    beBytes 2 header.nscount.toNat ++ beBytes 2 header.arcount.toNat

/-- A standard query with one question, and nothing that only a response has. -/
structure Header.IsQuery (header : Header) : Prop where
  qr : header.qr = false
  opcode : header.opcode = 0
  ra : header.ra = false
  z : header.z = false
  rcode : header.rcode = 0
  qdcount : header.qdcount = 1
  ancount : header.ancount = 0
  nscount : header.nscount = 0

/-- The header of a failed resolution: of the query it keeps the identifier and the wish for
recursion. -/
def Header.failed (header : Header) : Header where
  id := header.id
  qr := true
  opcode := 0
  aa := false
  tc := false
  rd := header.rd
  ra := true
  z := false
  ad := false
  cd := false
  rcode := 2
  qdcount := 1
  ancount := 0
  nscount := 0
  arcount := 0

structure Label where
  bytes : Bytes
  nonempty : 1 ≤ bytes.length
  short : bytes.length ≤ 63

def Label.encode (label : Label) : Bytes := UInt8.ofNat label.bytes.length :: label.bytes

/-- Labels as they stand one after the other. -/
def encodeLabels (labels : List Label) : Bytes := labels.flatMap Label.encode

/-- A name ends with the empty label of the root, which counts for its length. -/
structure Name where
  labels : List Label
  short : (encodeLabels labels).length + 1 ≤ 255

def Name.encode (name : Name) : Bytes := encodeLabels name.labels ++ [0]

structure Question where
  name : Name
  qtype : UInt16
  qclass : UInt16
  known : qclass.toNat ∈ [1, 3, 4, 255]

def Question.encode (question : Question) : Bytes :=
  question.name.encode ++ beBytes 2 question.qtype.toNat ++ beBytes 2 question.qclass.toNat

/-! ### The walk over the labels -/

theorem encodeLabels_cons (label : Label) (labels : List Label) :
    encodeLabels (label :: labels) =
      UInt8.ofNat label.bytes.length :: (label.bytes ++ encodeLabels labels) := rfl

theorem length_encodeLabels_cons (label : Label) (labels : List Label) :
    (encodeLabels (label :: labels)).length =
      1 + label.bytes.length + (encodeLabels labels).length := by
  rw [encodeLabels_cons, List.length_cons, List.length_append]
  omega

/-- Each label takes two bytes at least. -/
theorem length_le_encodeLabels (labels : List Label) :
    labels.length ≤ (encodeLabels labels).length := by
  induction labels with
  | nil => exact Nat.le_refl 0
  | cons label labels ih =>
    rw [length_encodeLabels_cons, List.length_cons]
    omega

theorem byteAt_of_drop {data : Bytes} {pos : Nat} {byte : UInt8} {rest : Bytes}
    (h : data.drop pos = byte :: rest) : pos < data.length ∧ byteAt data pos = byte.toNat := by
  have hpos : pos < data.length := by
    by_contra hpast
    rw [List.drop_eq_nil_of_le (Nat.not_lt.mp hpast)] at h
    cases h
  rw [List.drop_eq_getElem_cons hpos] at h
  refine ⟨hpos, ?_⟩
  rw [byteAt, List.getD_eq_getElem?_getD, List.getElem?_eq_getElem hpos, (List.cons.inj h).1]
  rfl

theorem exists_drop_eq {data : Bytes} {pos : Nat} (h : pos < data.length) :
    ∃ byte, data.drop pos = byte :: data.drop (pos + 1) ∧ byteAt data pos = byte.toNat :=
  ⟨_, List.drop_eq_getElem_cons h, (byteAt_of_drop (List.drop_eq_getElem_cons h)).2⟩

/-- What the walk passes are labels, up to the root. -/
theorem qnameEnd_sound {data : Bytes} {fuel pos qnameLen stop : Nat}
    (h : qnameEnd data fuel pos qnameLen = some stop) (hlen : qnameLen + 1 ≤ 255) :
    ∃ labels rest, data.drop pos = encodeLabels labels ++ 0 :: rest ∧
      stop = pos + (encodeLabels labels).length + 1 ∧
      qnameLen + (encodeLabels labels).length + 1 ≤ 255 := by
  induction fuel generalizing pos qnameLen with
  | zero => cases h
  | succ fuel ih =>
    rw [qnameEnd] at h
    split at h
    · cases h
    next hpos =>
    obtain ⟨byte, hdrop, hbyte⟩ := exists_drop_eq (Nat.not_le.mp hpos)
    dsimp only at h
    rw [hbyte] at h
    split at h
    · cases h
    split at h
    · -- the root
      next hzero =>
      obtain rfl : byte = 0 := UInt8.toNat_inj.mp hzero
      cases h
      exact ⟨[], data.drop (pos + 1), hdrop, rfl, hlen⟩
    next hnonzero =>
    split at h
    · cases h
    next hlabel =>
    split at h
    · cases h
    next hshort =>
    obtain ⟨labels, rest, hrest, hstop, hbound⟩ := ih h (Nat.not_lt.mp hshort)
    -- the walk went on, so the label is there in full
    have hfull : ((data.drop (pos + 1)).take byte.toNat).length = byte.toNat := by
      have hnext : pos + 1 + byte.toNat < data.length := by
        by_contra hpast
        rw [List.drop_eq_nil_of_le (Nat.not_lt.mp hpast)] at hrest
        simp at hrest
      rw [List.length_take, List.length_drop]
      omega
    let label : Label := ⟨(data.drop (pos + 1)).take byte.toNat,
      hfull.symm ▸ Nat.pos_of_ne_zero hnonzero, hfull.symm ▸ Nat.not_lt.mp hlabel⟩
    have hbytes : label.bytes.length = byte.toNat := hfull
    refine ⟨label :: labels, rest, ?_, ?_, ?_⟩
    · have hsplit := List.take_append_drop byte.toNat (data.drop (pos + 1))
      rw [List.drop_drop, hrest] at hsplit
      rw [hdrop, encodeLabels_cons, hbytes, UInt8.ofNat_toNat, List.cons_append, List.append_assoc]
      exact congrArg _ hsplit.symm
    · rw [length_encodeLabels_cons, hbytes]
      omega
    · rw [length_encodeLabels_cons, hbytes]
      omega

/-- The walk passes labels that are there, and stops behind the root. -/
theorem qnameEnd_complete {data rest : Bytes} {labels : List Label} {fuel pos qnameLen : Nat}
    (hdata : data.drop pos = encodeLabels labels ++ 0 :: rest) (hfuel : labels.length < fuel)
    (hlen : qnameLen + (encodeLabels labels).length + 1 ≤ 255) :
    qnameEnd data fuel pos qnameLen = some (pos + (encodeLabels labels).length + 1) := by
  induction labels generalizing fuel pos qnameLen with
  | nil =>
    obtain ⟨fuel, rfl⟩ := Nat.exists_eq_add_one_of_ne_zero (Nat.ne_of_gt hfuel)
    obtain ⟨hpos, hbyte⟩ := byteAt_of_drop hdata
    rw [qnameEnd, if_neg (Nat.not_le.mpr hpos), hbyte]
    rfl
  | cons label labels ih =>
    obtain ⟨fuel, rfl⟩ := Nat.exists_eq_add_one_of_ne_zero (Nat.ne_of_gt (Nat.zero_lt_of_lt hfuel))
    rw [encodeLabels_cons, List.cons_append] at hdata
    rw [length_encodeLabels_cons] at hlen ⊢
    obtain ⟨hpos, hbyte⟩ := byteAt_of_drop hdata
    have hnonempty := label.nonempty
    have hshort := label.short
    have hlength : byteAt data pos = label.bytes.length := by
      rw [hbyte, UInt8.toNat_ofNat', Nat.mod_eq_of_lt (by omega)]
    have hbits : ∀ n < 64, n &&& 0xc0 = 0 := by decide
    have hnext : data.drop (pos + 1 + label.bytes.length) = encodeLabels labels ++ 0 :: rest := by
      rw [← List.drop_drop, ← List.drop_drop, hdata, List.drop_one, List.tail_cons,
        List.append_assoc, List.drop_left]
    rw [qnameEnd, if_neg (Nat.not_le.mpr hpos)]
    dsimp only
    rw [hlength, if_neg (fun h => h (hbits _ (by omega))), if_neg (by omega), if_neg (by omega),
      if_neg (by omega), ih hnext (by rw [List.length_cons] at hfuel; omega) (by omega)]
    congr 1
    omega

/-! ### The header -/

theorem beBytes_two (n : Nat) : beBytes 2 n = [UInt8.ofNat (n / 256), UInt8.ofNat n] := rfl

theorem exists_uint16 (high low : UInt8) : ∃ n : UInt16, beBytes 2 n.toNat = [high, low] := by
  refine ⟨UInt16.ofNat (256 * high.toNat + low.toNat), ?_⟩
  have hhigh := high.toNat_lt
  have hlow := low.toNat_lt
  rw [UInt16.toNat_ofNat', Nat.mod_eq_of_lt (by omega), beBytes_two]
  congr 1
  · rw [← UInt8.toNat_inj, UInt8.toNat_ofNat']
    omega
  · congr 1
    rw [← UInt8.toNat_inj, UInt8.toNat_ofNat']
    omega

theorem length_encode (header : Header) : header.encode.length = DNS_HEADER_LEN := by
  simp [Header.encode, DNS_HEADER_LEN]

/-- The bytes of a query's header. -/
theorem Header.IsQuery.encode_eq {header : Header} (h : header.IsQuery) :
    header.encode = beBytes 2 header.id.toNat ++
      [UInt8.ofNat (4 * header.aa.toNat + 2 * header.tc.toNat + header.rd.toNat),
        UInt8.ofNat (32 * header.ad.toNat + 16 * header.cd.toNat), 0, 1, 0, 0, 0, 0] ++
      beBytes 2 header.arcount.toNat := by
  unfold Header.encode
  rw [h.qr, h.opcode, h.ra, h.z, h.rcode, h.qdcount, h.ancount, h.nscount]
  simp [beBytes_two]

/-- Twelve bytes whose response-only bits are clear are a header. -/
theorem exists_header {data : Bytes} (hlen : DNS_HEADER_LEN ≤ data.length)
    (hflags : byteAt data 2 &&& 0xf8 = 0) (hrcode : byteAt data 3 &&& 0xcf = 0)
    (hquestions : beNat (slice data 4 6) = 1) (hanswers : beNat (slice data 6 8) = 0)
    (hauthorities : beNat (slice data 8 10) = 0) :
    ∃ header : Header, header.IsQuery ∧ data = header.encode ++ data.drop DNS_HEADER_LEN := by
  match data, hlen with
  | i₀ :: i₁ :: f₀ :: f₁ :: q₀ :: q₁ :: a₀ :: a₁ :: n₀ :: n₁ :: r₀ :: r₁ :: rest, _ =>
    have hpairs : beNat [q₀, q₁] = 1 ∧ beNat [a₀, a₁] = 0 ∧ beNat [n₀, n₁] = 0 :=
      ⟨hquestions, hanswers, hauthorities⟩
    simp only [beNat_pair] at hpairs
    obtain rfl : q₀ = 0 := UInt8.toNat_inj.mp (show q₀.toNat = 0 by omega)
    obtain rfl : q₁ = 1 := UInt8.toNat_inj.mp (show q₁.toNat = 1 by omega)
    obtain rfl : a₀ = 0 := UInt8.toNat_inj.mp (show a₀.toNat = 0 by omega)
    obtain rfl : a₁ = 0 := UInt8.toNat_inj.mp (show a₁.toNat = 0 by omega)
    obtain rfl : n₀ = 0 := UInt8.toNat_inj.mp (show n₀.toNat = 0 by omega)
    obtain rfl : n₁ = 0 := UInt8.toNat_inj.mp (show n₁.toNat = 0 by omega)
    have hfirst : ∀ n < 256, n &&& 0xf8 = 0 →
        ∃ aa tc rd : Bool, 4 * aa.toNat + 2 * tc.toNat + rd.toNat = n := by
      decide +kernel
    have hsecond : ∀ n < 256, n &&& 0xcf = 0 →
        ∃ ad cd : Bool, 32 * ad.toNat + 16 * cd.toNat = n := by
      decide +kernel
    obtain ⟨id, hid⟩ := exists_uint16 i₀ i₁
    obtain ⟨arcount, harcount⟩ := exists_uint16 r₀ r₁
    obtain ⟨aa, tc, rd, hf₀⟩ := hfirst f₀.toNat f₀.toNat_lt hflags
    obtain ⟨ad, cd, hf₁⟩ := hsecond f₁.toNat f₁.toNat_lt hrcode
    let header : Header := ⟨id, false, 0, aa, tc, rd, false, false, ad, cd, 0, 1, 0, 0, arcount⟩
    have hquery : header.IsQuery := ⟨rfl, rfl, rfl, rfl, rfl, rfl, rfl, rfl⟩
    refine ⟨header, hquery, ?_⟩
    rw [hquery.encode_eq, hid, harcount, hf₀, hf₁, UInt8.ofNat_toNat, UInt8.ofNat_toNat]
    rfl

theorem questionEnd_of_isQuery {query : Bytes} {stop : Nat} (h : IsQuery query stop) :
    questionEnd query =
      if beNat (slice query (stop - 2) stop) ∈ [1, 3, 4, 255] then some stop else none := by
  obtain ⟨nameEnd, hname, rfl⟩ := h.name
  unfold questionEnd
  rw [if_neg (Nat.not_lt.mpr h.header), if_neg (by simp [h.flags, h.rcode]),
    if_neg (by simp [h.questions, h.answers, h.authorities]), hname]
  dsimp only
  rw [if_neg (Nat.not_lt.mpr h.room)]
  exact if_congr List.contains_iff_mem rfl rfl

/-- The parser's own account of a query, class included. -/
theorem questionEnd_eq_some {query : Bytes} {stop : Nat} :
    questionEnd query = some stop ↔
      IsQuery query stop ∧ beNat (slice query (stop - 2) stop) ∈ [1, 3, 4, 255] := by
  constructor
  · intro h
    have hquery := questionEnd_spec h
    rw [questionEnd_of_isQuery hquery] at h
    refine ⟨hquery, ?_⟩
    by_contra hclass
    rw [if_neg hclass] at h
    cases h
  · rintro ⟨hquery, hclass⟩
    rw [questionEnd_of_isQuery hquery, if_pos hclass]

/-! ### The parser and the grammar -/

theorem length_encode_question (question : Question) :
    question.encode.length = (encodeLabels question.name.labels).length + 1 + 4 := by
  simp [Question.encode, Name.encode]

/-- What the parser accepts is a query. -/
theorem exists_encode {data : Bytes} {stop : Nat} (h : questionEnd data = some stop) :
    ∃ (header : Header) (question : Question) (rest : Bytes), header.IsQuery ∧
      data = header.encode ++ question.encode ++ rest ∧
      stop = (header.encode ++ question.encode).length := by
  obtain ⟨hquery, hclass⟩ := questionEnd_eq_some.mp h
  obtain ⟨header, hheader, hdata⟩ := exists_header hquery.header hquery.flags hquery.rcode
    hquery.questions hquery.answers hquery.authorities
  obtain ⟨nameEnd, hname, hstop⟩ := hquery.name
  obtain ⟨labels, rest, hlabels, hend, hshort⟩ := qnameEnd_sound hname (by decide)
  have hroom := hquery.room
  have hlength := congrArg List.length hlabels
  rw [List.length_drop, List.length_append, List.length_cons] at hlength
  have hheaderLen := hquery.header
  match rest with
  | [] | [_] | [_, _] | [_, _, _] => simp at hlength; omega
  | t₀ :: t₁ :: c₀ :: c₁ :: rest =>
    obtain ⟨qtype, hqtype⟩ := exists_uint16 t₀ t₁
    obtain ⟨qclass, hqclass⟩ := exists_uint16 c₀ c₁
    have hparts : data = (header.encode ++ (encodeLabels labels ++ [0, t₀, t₁])) ++ [c₀, c₁] ++ rest := by
      rw [hdata, hlabels]
      simp
    have hfront : (header.encode ++ (encodeLabels labels ++ [0, t₀, t₁])).length = stop - 2 := by
      simp [length_encode]
      omega
    have hknown : qclass.toNat ∈ [1, 3, 4, 255] := by
      rw [hparts, List.append_assoc, slice_between _ _ _ hfront (by simp; omega), ← hqclass,
        beNat_beBytes qclass.toNat_lt] at hclass
      exact hclass
    let question : Question := ⟨⟨labels, by omega⟩, qtype, qclass, hknown⟩
    refine ⟨header, question, rest, hheader, ?_, ?_⟩
    · rw [hparts]
      simp [question, Question.encode, Name.encode, hqtype, hqclass]
    · rw [List.length_append, length_encode, length_encode_question, hstop, hend]
      rfl

/-- A query is accepted, whatever stands behind it. -/
theorem questionEnd_encode {header : Header} (h : header.IsQuery) (question : Question)
    (rest : Bytes) : questionEnd (header.encode ++ question.encode ++ rest) =
      some (header.encode ++ question.encode).length := by
  have hfirst : ∀ aa tc rd : Bool,
      (UInt8.ofNat (4 * aa.toNat + 2 * tc.toNat + rd.toNat)).toNat &&& 0xf8 = 0 := by
    decide
  have hsecond : ∀ ad cd : Bool,
      (UInt8.ofNat (32 * ad.toNat + 16 * cd.toNat)).toNat &&& 0xcf = 0 := by
    decide
  have hlength := length_encode header
  have hquestion := length_encode_question question
  have hname : qnameEnd (header.encode ++ question.encode ++ rest)
      ((header.encode ++ question.encode ++ rest).length + 1) DNS_HEADER_LEN 0 =
        some (DNS_HEADER_LEN + (encodeLabels question.name.labels).length + 1) := by
    have hlabels := length_le_encodeLabels question.name.labels
    have hdrop : (header.encode ++ question.encode ++ rest).drop DNS_HEADER_LEN =
        encodeLabels question.name.labels ++ 0 ::
          (beBytes 2 question.qtype.toNat ++ beBytes 2 question.qclass.toNat ++ rest) := by
      rw [List.append_assoc, List.drop_left' hlength, Question.encode, Name.encode]
      simp
    refine qnameEnd_complete hdrop ?_ (Nat.le_trans (by omega) question.name.short)
    simp only [List.length_append]
    omega
  refine questionEnd_eq_some.mpr ⟨⟨?_, ?_, ?_, ?_, ?_, ?_, ⟨_, hname, ?_⟩, ?_⟩, ?_⟩
  · rw [List.append_assoc, List.length_append]
    omega
  · rw [h.encode_eq]
    exact hfirst header.aa header.tc header.rd
  · rw [h.encode_eq]
    exact hsecond header.ad header.cd
  · rw [h.encode_eq]
    rfl
  · rw [h.encode_eq]
    rfl
  · rw [h.encode_eq]
    rfl
  · rw [List.length_append]
    omega
  · simp only [List.length_append]
    omega
  · rw [Question.encode, ← List.append_assoc, List.append_assoc _ _ rest,
      slice_between _ _ _ ?_ ?_, beNat_beBytes question.qclass.toNat_lt]
    · exact question.known
    · simp only [List.length_append, length_beBytes]
      omega
    · simp only [List.length_append, length_beBytes]
      omega

theorem exists_labels {labels : List Bytes}
    (h : ∀ label ∈ labels, 1 ≤ label.length ∧ label.length ≤ 63) :
    ∃ typed : List Label, encodeLabels typed = dnsLabels labels := by
  induction labels with
  | nil => exact ⟨[], rfl⟩
  | cons label labels ih =>
    obtain ⟨⟨hnonempty, hshort⟩, hrest⟩ := List.forall_mem_cons.mp h
    obtain ⟨typed, htyped⟩ := ih hrest
    refine ⟨⟨label, hnonempty, hshort⟩ :: typed, ?_⟩
    rw [encodeLabels_cons, htyped]
    rfl

/-- Twelve bytes of a query's header, then labels that fit a name, a type and the class of the
Internet: what a client writes of a query, whatever stands behind it. -/
theorem questionEnd_of_labels {i₀ i₁ f₀ f₁ r₀ r₁ t₀ t₁ : UInt8} {labels : List Bytes}
    (hflags : f₀.toNat &&& 0xf8 = 0) (hrcode : f₁.toNat &&& 0xcf = 0)
    (hlabels : ∀ label ∈ labels, 1 ≤ label.length ∧ label.length ≤ 63)
    (hshort : (dnsLabels labels).length + 1 ≤ 255) (rest : Bytes) :
    (questionEnd ([i₀, i₁, f₀, f₁, 0, 1, 0, 0, 0, 0, r₀, r₁] ++
      (dnsLabels labels ++ 0 :: t₀ :: t₁ :: 0 :: 1 :: rest))).isSome = true := by
  obtain ⟨typed, htyped⟩ := exists_labels hlabels
  obtain ⟨qtype, hqtype⟩ := exists_uint16 t₀ t₁
  obtain ⟨header, hquery, hheader⟩ := @exists_header
    ([i₀, i₁, f₀, f₁, 0, 1, 0, 0, 0, 0, r₀, r₁] ++
      (dnsLabels labels ++ 0 :: t₀ :: t₁ :: 0 :: 1 :: rest))
    (Nat.le_add_left _ _) hflags hrcode rfl rfl rfl
  let question : Question := ⟨⟨typed, by rw [htyped]; exact hshort⟩, qtype, 1, by decide⟩
  have hencode : ([i₀, i₁, f₀, f₁, 0, 1, 0, 0, 0, 0, r₀, r₁] ++
      (dnsLabels labels ++ 0 :: t₀ :: t₁ :: 0 :: 1 :: rest)).drop DNS_HEADER_LEN =
        question.encode ++ rest := by
    simp [question, Question.encode, Name.encode, htyped, hqtype, beBytes_two, DNS_HEADER_LEN]
  rw [hheader, hencode, ← List.append_assoc, questionEnd_encode hquery]
  rfl

/-- The answer to a query is the query's own question under the header of a failure. -/
theorem servfail_encode {header : Header} (h : header.IsQuery) (question : Question)
    (rest : Bytes) : servfail (header.encode ++ question.encode ++ rest) =
      some (header.failed.encode ++ question.encode) := by
  have hflags : ∀ aa tc rd : Bool,
      UInt8.ofNat (0x80 ||| ((UInt8.ofNat (4 * aa.toNat + 2 * tc.toNat + rd.toNat)).toNat &&&
        (0x78 ||| 0x01))) = UInt8.ofNat (128 + rd.toNat) := by
    decide
  unfold servfail
  rw [questionEnd_encode h, Option.map_some]
  have hquestion : slice (header.encode ++ question.encode ++ rest) DNS_HEADER_LEN
      (header.encode ++ question.encode).length = question.encode := by
    rw [List.append_assoc]
    exact slice_between _ _ _ (length_encode header) (by simp [length_encode])
  have hid : slice (header.encode ++ question.encode ++ rest) 0 2 = beBytes 2 header.id.toNat := by
    rw [h.encode_eq]
    rfl
  have hbyte : byteAt (header.encode ++ question.encode ++ rest) 2 =
      (UInt8.ofNat (4 * header.aa.toNat + 2 * header.tc.toNat + header.rd.toNat)).toNat := by
    rw [h.encode_eq]
    rfl
  rw [hquestion, hid, hbyte, hflags]
  simp [Header.encode, Header.failed, beBytes_two, show (0x80 ||| 0x02 : UInt8) = 0x82 from rfl]

/-! ### Every index within the datagram -/

namespace Indexed

/-- `data[i]`. There is no byte past the end: the program panics. -/
def index (data : Bytes) (i : Nat) : Option Nat := data[i]?.map UInt8.toNat

/-- `u16::from_be_bytes([data[i], data[i + 1]])`. -/
def index16 (data : Bytes) (i : Nat) : Option Nat := do
  let high ← index data i
  let low ← index data (i + 1)
  return 256 * high + low

/-- The walk over the labels reads with `get`, which does not panic. A walk that does not come
to an end does not return. -/
def qnameEnd (data : Bytes) : Nat → Nat → Nat → Option (Option Nat)
  | 0, _, _ => none
  | fuel + 1, pos, qnameLen =>
    match data[pos]? with
    | none => some none
    | some byte =>
      let labelLen := byte.toNat
      if labelLen &&& 0xc0 ≠ 0 then some none
      else if labelLen = 0 then some (some (pos + 1))
      else if labelLen > 63 then some none
      else if qnameLen + (1 + labelLen) + 1 > 255 then some none
      else qnameEnd data fuel (pos + 1 + labelLen) (qnameLen + (1 + labelLen))

def questionEnd (query : Bytes) : Option (Option Nat) := do
  if query.length < DNS_HEADER_LEN then return none
  let high ← index query 2
  let low ← index query 3
  if high &&& 0xf8 ≠ 0 ∨ low &&& 0xcf ≠ 0 then return none
  let qdcount ← index16 query 4
  let ancount ← index16 query 6
  let nscount ← index16 query 8
  if qdcount ≠ 1 ∨ ancount ≠ 0 ∨ nscount ≠ 0 then return none
  match ← qnameEnd query (query.length + 1) DNS_HEADER_LEN 0 with
  | none => return none
  | some nameEnd =>
    if query.length < nameEnd + 4 then return none
    let qclass ← index16 query (nameEnd + 2)
    if [1, 3, 4, 255].contains qclass then return some (nameEnd + 4) else return none

theorem index_eq {data : Bytes} {i : Nat} (h : i < data.length) :
    index data i = some (byteAt data i) := by
  rw [index, byteAt, List.getD_eq_getElem?_getD, List.getElem?_eq_getElem h]
  rfl

theorem index16_eq {data : Bytes} {i : Nat} (h : i + 2 ≤ data.length) :
    index16 data i = some (beNat (slice data i (i + 2))) := by
  obtain ⟨high, hhigh, hbyte⟩ := exists_drop_eq (show i < data.length by omega)
  obtain ⟨low, hlow, hbyte'⟩ := exists_drop_eq (show i + 1 < data.length by omega)
  rw [index16, index_eq (by omega), index_eq (by omega), hbyte, hbyte', slice, hhigh, hlow,
    Nat.add_sub_cancel_left]
  exact congrArg some (beNat_pair high low).symm

/-- The walk comes to an end: each label takes it two bytes further at least. -/
theorem qnameEnd_eq {data : Bytes} {fuel pos qnameLen : Nat} (h : data.length - pos < fuel) :
    qnameEnd data fuel pos qnameLen = some (Imitation.qnameEnd data fuel pos qnameLen) := by
  induction fuel generalizing pos qnameLen with
  | zero => exact absurd h (Nat.not_lt_zero _)
  | succ fuel ih =>
    rw [qnameEnd, Imitation.qnameEnd]
    by_cases hpos : pos < data.length
    · rw [List.getElem?_eq_getElem hpos, if_neg (Nat.not_le.mpr hpos)]
      have hbyte : byteAt data pos = data[pos].toNat :=
        (byteAt_of_drop (List.drop_eq_getElem_cons hpos)).2
      dsimp only
      rw [hbyte, ih (by omega)]
      repeat' split
      all_goals rfl
    · rw [List.getElem?_eq_none (Nat.not_lt.mp hpos), if_pos (Nat.not_lt.mp hpos)]

theorem questionEnd_eq (query : Bytes) :
    questionEnd query = some (Imitation.questionEnd query) := by
  unfold questionEnd Imitation.questionEnd
  split
  · rfl
  next hlen =>
  simp only [DNS_HEADER_LEN, Nat.not_lt] at hlen
  rw [index_eq (by omega), index_eq (by omega), index16_eq (by omega), index16_eq (by omega),
    index16_eq (by omega), qnameEnd_eq (by omega)]
  simp only [Option.bind_eq_bind, Option.bind_some]
  split
  · rfl
  split
  · rfl
  cases Imitation.qnameEnd query (query.length + 1) DNS_HEADER_LEN 0 with
  | none => rfl
  | some nameEnd =>
    dsimp only
    split
    · rfl
    next hroom =>
    rw [index16_eq (by omega), Option.bind_some]
    split
    · rfl
    · rfl

end Indexed

/-! ### Queries and their answers -/

/-- The parser accepts the queries of the grammar and nothing else, up to the end of their
question and without an index past the end of the datagram. The answer takes as many bytes: the
same question, under a header that says that the resolution failed. -/
theorem question_grammar (data : Bytes) :
    (∀ stop, questionEnd data = some stop ↔
      ∃ (header : Header) (question : Question) (rest : Bytes), header.IsQuery ∧
        data = header.encode ++ question.encode ++ rest ∧
        stop = (header.encode ++ question.encode).length) ∧
    Indexed.questionEnd data = some (questionEnd data) ∧
    ∀ (header : Header) (question : Question) (rest : Bytes), header.IsQuery →
      data = header.encode ++ question.encode ++ rest →
      servfail data = some (header.failed.encode ++ question.encode) ∧
      questionEnd data = some (header.failed.encode ++ question.encode).length := by
  refine ⟨fun stop => ⟨exists_encode, ?_⟩, Indexed.questionEnd_eq data, ?_⟩
  · rintro ⟨header, question, rest, hquery, rfl, rfl⟩
    exact questionEnd_encode hquery question rest
  · rintro header question rest hquery rfl
    refine ⟨servfail_encode hquery question rest, ?_⟩
    rw [questionEnd_encode hquery, List.length_append, List.length_append, length_encode,
      length_encode]

/-- A query for the text records of `a`, as a diagnostic tool asks a server about itself. -/
theorem question_grammar_chaos :
    servfail ([0xab, 0xcd, 0x03, 0x20, 0, 1, 0, 0, 0, 0, 0, 1, 1, 97, 0, 0, 16, 0, 3, 0xff] : Bytes) =
      some [0xab, 0xcd, 0x81, 0x82, 0, 1, 0, 0, 0, 0, 0, 0, 1, 97, 0, 0, 16, 0, 3] :=
  ((question_grammar _).2.2
    ⟨0xabcd, false, 0, false, true, true, false, false, true, false, 0, 1, 0, 0, 1⟩
    ⟨⟨[⟨[97], by decide, by decide⟩], by decide⟩, 16, 3, by decide⟩ [0xff]
    ⟨rfl, rfl, rfl, rfl, rfl, rfl, rfl, rfl⟩ (by decide)).1.trans (by decide)

end BoringTun.Imitation.Dns

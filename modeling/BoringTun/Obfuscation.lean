import BoringTun.Lib.WordStream

/-!
Message-type tags (`TagRange` and `ObfuscationRanges` in `noise/handshake.rs`).

Every message starts with a 32-bit tag drawn from the range of its kind. A
`TagRange` carries that it is a non-empty range of `u32`, an `ObfuscationRanges`
that its four ranges are pairwise disjoint, which is what `ObfuscationRanges::new`
checks; so a tag names at most one kind (`ObfuscationRanges.tag_unique`).
-/

namespace BoringTun

def HANDSHAKE_INIT : UInt32 := 1
def HANDSHAKE_RESP : UInt32 := 2
def COOKIE_REPLY : UInt32 := 3
def DATA : UInt32 := 4

/-- An inclusive range `[start..=stop]` of tag values. -/
structure TagRange where
  start : Nat
  stop : Nat
  start_le : start ≤ stop
  stop_lt : stop < 2 ^ 32
  deriving DecidableEq

namespace TagRange

def contains (range : TagRange) (value : Nat) : Bool :=
  value ≥ range.start && value ≤ range.stop

def overlaps (a b : TagRange) : Bool :=
  a.start ≤ b.stop && b.start ≤ a.stop

/-- The range of one value. -/
def single (value : UInt32) : TagRange where
  start := value.toNat
  stop := value.toNat
  start_le := Nat.le_refl _
  stop_lt := value.toNat_lt

def random (range : TagRange) (rng : Rng) : Nat × Rng :=
  if range.start = range.stop then (range.start, rng)
  -- the full range would need a modulus of 2 ^ 32
  else if range.start = 0 ∧ range.stop = 2 ^ 32 - 1 then rng.nextU32
  else
    let draw := rng.uniform (range.stop - range.start + 1)
    (range.start + draw.1, draw.2)

theorem contains_iff {range : TagRange} {value : Nat} :
    range.contains value = true ↔ range.start ≤ value ∧ value ≤ range.stop := by
  simp [contains]

/-- A drawn tag lies in its range. -/
theorem contains_random (range : TagRange) (rng : Rng) :
    range.contains (range.random rng).1 = true := by
  have hle := range.start_le
  rw [contains_iff]
  unfold random
  split
  · exact ⟨Nat.le_refl _, hle⟩
  · split
    · next hfull =>
      have := rng.nextU32_lt
      omega
    · have hpos : 0 < range.stop - range.start + 1 := Nat.succ_pos _
      have := Rng.uniform_lt hpos rng
      simp only
      omega

/-- The words a tag is drawn from: for the full range any 32-bit word, otherwise the first
accepted 64-bit one. -/
theorem random_drawsUniformly {range : TagRange} (h : range.start < range.stop) :
    if range.start = 0 ∧ range.stop = 2 ^ 32 - 1 then
      Rng.DrawsUniformly Rng.u32 range.random (fun _ => true) id range.start range.stop
    else
      Rng.DrawsUniformly Rng.u64 range.random (Rng.below (range.stop - range.start + 1))
        (fun word => range.start + word % (range.stop - range.start + 1))
        range.start range.stop := by
  have hlt := range.stop_lt
  split
  · next hfull =>
    have hdraw : range.random = Rng.nextU32 := by
      funext rng
      rw [random, if_neg (by omega), if_pos hfull]
    rw [hdraw, hfull.1, hfull.2]
    exact Rng.nextU32_drawsUniformly
  · next hpart =>
    refine Rng.uniform_drawsUniformly range.start_le (by omega) ?_
    intro rng
    rw [random, if_neg (by omega), if_neg hpart]

theorem lt_of_contains {range : TagRange} {value : Nat} (h : range.contains value = true) :
    value < 2 ^ 32 := by
  have := contains_iff.mp h
  have := range.stop_lt
  omega

theorem random_lt (range : TagRange) (rng : Rng) : (range.random rng).1 < 2 ^ 32 :=
  lt_of_contains (contains_random range rng)

theorem overlaps_of_contains {a b : TagRange} {value : Nat} (ha : a.contains value = true)
    (hb : b.contains value = true) : a.overlaps b = true := by
  rw [contains_iff] at ha hb
  simp only [overlaps, Bool.and_eq_true, decide_eq_true_eq]
  omega

theorem overlaps_comm (a b : TagRange) : a.overlaps b = b.overlaps a := by
  simp [overlaps, Bool.and_comm]

end TagRange

/-- Pairwise disjoint tag ranges: H1 initiation, H2 response, H3 cookie reply, H4 data. -/
structure ObfuscationRanges where
  h1Init : TagRange
  h2Resp : TagRange
  h3Cookie : TagRange
  h4Data : TagRange
  disjoint : [h1Init, h2Resp, h3Cookie, h4Data].Pairwise fun a b => a.overlaps b = false
  deriving DecidableEq

namespace ObfuscationRanges

/-- `(0, 0)` is the default tag, `(start, 0)` a single tag, otherwise `start <= end`. -/
def resolve (name : String) (start stop default : UInt32) : Except String TagRange :=
  if start = 0 ∧ stop = 0 then .ok (.single default)
  else if stop = 0 then .ok (.single start)
  else if h : start.toNat ≤ stop.toNat then .ok ⟨start.toNat, stop.toNat, h, stop.toNat_lt⟩
  else .error ("Invalid " ++ name ++ " range: start (" ++ toString start.toNat ++
    ") > end (" ++ toString stop.toNat ++ ")")

/-- The text for the first pair of ranges that overlap, in the order of the two loops. -/
def overlapMessage : List (String × TagRange) → String
  | [] => ""
  | (nameA, a) :: rest =>
    match rest.find? fun entry => a.overlaps entry.2 with
    | some (nameB, b) =>
      nameA ++ " [" ++ toString a.start ++ ".." ++ toString a.stop ++ "] overlaps " ++
        nameB ++ " [" ++ toString b.start ++ ".." ++ toString b.stop ++ "] at " ++
        toString (max a.start b.start) ++ ".." ++ toString (min a.stop b.stop)
    | none => overlapMessage rest

def new (h1Start h1End h2Start h2End h3Start h3End h4Start h4End : UInt32) :
    Except String ObfuscationRanges := do
  let h1 ← resolve "H1" h1Start h1End HANDSHAKE_INIT
  let h2 ← resolve "H2" h2Start h2End HANDSHAKE_RESP
  let h3 ← resolve "H3" h3Start h3End COOKIE_REPLY
  let h4 ← resolve "H4" h4Start h4End DATA
  if h : [h1, h2, h3, h4].Pairwise fun a b => a.overlaps b = false then
    .ok ⟨h1, h2, h3, h4, h⟩
  else .error (overlapMessage [("H1", h1), ("H2", h2), ("H3", h3), ("H4", h4)])

/-- The tags of plain WireGuard. -/
def default : ObfuscationRanges where
  h1Init := .single HANDSHAKE_INIT
  h2Resp := .single HANDSHAKE_RESP
  h3Cookie := .single COOKIE_REPLY
  h4Data := .single DATA
  disjoint := by decide

variable (obf : ObfuscationRanges) (v : Nat)

def matchesH1 : Bool := obf.h1Init.contains v
def matchesH2 : Bool := obf.h2Resp.contains v
def matchesH3 : Bool := obf.h3Cookie.contains v
def matchesH4 : Bool := obf.h4Data.contains v

variable {obf v}

/-- A tag of one range is in none of the others. -/
theorem tag_unique {a b : TagRange}
    (hpair : a.overlaps b = false ∨ b.overlaps a = false) (ha : a.contains v = true) :
    b.contains v = false := by
  cases hb : b.contains v with
  | false => rfl
  | true =>
    have hab := TagRange.overlaps_of_contains ha hb
    rw [b.overlaps_comm a] at hpair
    simp [hab] at hpair

/-- The six disjointness facts, one pair of kinds each. -/
theorem pairwise (obf : ObfuscationRanges) :
    (obf.h1Init.overlaps obf.h2Resp = false ∧ obf.h1Init.overlaps obf.h3Cookie = false ∧
      obf.h1Init.overlaps obf.h4Data = false) ∧
    (obf.h2Resp.overlaps obf.h3Cookie = false ∧ obf.h2Resp.overlaps obf.h4Data = false) ∧
    obf.h3Cookie.overlaps obf.h4Data = false := by
  simpa using obf.disjoint

end ObfuscationRanges

end BoringTun

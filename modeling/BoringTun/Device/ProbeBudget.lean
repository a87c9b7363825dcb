import BoringTun.Lib.Machine
import BoringTun.Lib.TokenBucket
import Mathlib.Algebra.Order.Ring.Nat
import Mathlib.Data.List.Basic

/-!
The ceiling on replies to unauthenticated datagrams (`device/probe_budget.rs`).

One word holds the balance and the instant it is for, and every worker spends from it by a loop
of load, clock and compare-and-exchange. `Shared` is the word with the workers on it; `Step` is
one atomic step of one of them, or of the clock. A load may return any value the word has held.
-/

namespace BoringTun

/-- Fixed-point scale of the token count. -/
def MILLI : Nat := 1000

/-- The largest rate the packed token field can represent. -/
def MAX_BYTES_PER_SEC : UInt32 := UInt32.ofNat ((2 ^ 32 - 1) / MILLI)

/-- `u64::saturating_mul`. -/
def saturatingMul (a b : Nat) : Nat := min (a * b) (2 ^ 64 - 1)

/-- `u64::saturating_add`. -/
def saturatingAdd (a b : Nat) : Nat := min (a + b) (2 ^ 64 - 1)

/-- High half the millibytes available, low half the milliseconds since the start. -/
def pack (millibytes millis : UInt32) : UInt64 := millibytes.toUInt64 <<< 32 ||| millis.toUInt64

def unpack (v : UInt64) : UInt32 × UInt32 := ((v >>> 32).toUInt32, v.toUInt32)

/-- The rate, no more than the word can hold a second of. -/
structure ProbeBudget where
  bytesPerSec : UInt32
  clamped : bytesPerSec ≤ MAX_BYTES_PER_SEC

namespace ProbeBudget

def new (bytesPerSec : UInt32) : ProbeBudget where
  bytesPerSec := min bytesPerSec MAX_BYTES_PER_SEC
  clamped := by
    change (if bytesPerSec ≤ MAX_BYTES_PER_SEC then _ else _) ≤ _
    split
    · assumption
    · exact UInt32.le_refl _

variable (budget : ProbeBudget)

def rate : Nat := budget.bytesPerSec.toNat

/-- The word a budget starts with. -/
def initial : UInt64 := pack (UInt32.ofNat (budget.rate * MILLI)) 0

def cap : Nat := saturatingMul budget.rate MILLI

/-- The millibytes a call asks for, unless they are more than a whole second's. -/
def wanted (bytes : Nat) : Option Nat :=
  if bytes < 2 ^ 32 ∧ saturatingMul bytes MILLI ≤ budget.cap then some (bytes * MILLI) else none

/-- What an attempt means to store. -/
inductive Verdict where
  | refuse (store : UInt64)
  | spend (store : UInt64)
  deriving DecidableEq

/-- The body of the loop between the clock and the exchange. -/
def attempt (want : Nat) (old : UInt64) (now : UInt32) : Verdict :=
  let (oldTokens, oldTs) := unpack old
  let elapsed := now.toNat - oldTs.toNat
  let refill := saturatingMul elapsed budget.rate
  let available := min (saturatingAdd oldTokens.toNat refill) budget.cap
  if available < want then .refuse (pack (UInt32.ofNat available) now)
  else .spend (pack (UInt32.ofNat (available - want)) now)

/-- A call that no other worker meets: whether it may send, and the word after. -/
def tryConsume (word : UInt64) (bytes : Nat) (now : UInt32) : Bool × UInt64 :=
  match budget.wanted bytes with
  | none => (false, word)
  | some want =>
    match budget.attempt want word now with
    | .refuse store => (false, store)
    | .spend store => (true, store)

/-! ### The packed word -/

theorem pack_toNat (millibytes millis : UInt32) :
    (pack millibytes millis).toNat = millibytes.toNat * 2 ^ 32 + millis.toNat := by
  have hlow := millis.toNat_lt
  have hhigh := millibytes.toNat_lt
  have hbound : millibytes.toNat <<< 32 < 2 ^ 64 := by
    omega
  have hshift : (millibytes.toUInt64 <<< 32).toNat = millibytes.toNat <<< 32 := by
    exact Nat.mod_eq_of_lt hbound
  unfold pack
  rw [UInt64.toNat_or, hshift, UInt32.toNat_toUInt64, ← Nat.shiftLeft_add_eq_or_of_lt hlow,
    Nat.shiftLeft_eq]

theorem unpack_pack (millibytes millis : UInt32) :
    unpack (pack millibytes millis) = (millibytes, millis) := by
  have hpack := pack_toNat millibytes millis
  have hlow := millis.toNat_lt
  have hhigh := millibytes.toNat_lt
  unfold unpack
  refine Prod.ext ?_ ?_ <;> apply UInt32.toNat_inj.mp
  · dsimp only
    rw [UInt64.toNat_toUInt32, UInt64.toNat_shiftRight, hpack, Nat.shiftRight_eq_div_pow]
    change (millibytes.toNat * 2 ^ 32 + millis.toNat) / 2 ^ 32 % 2 ^ 32 = _
    omega
  · dsimp only
    rw [UInt64.toNat_toUInt32, hpack]
    omega

theorem pack_unpack (v : UInt64) : pack (unpack v).1 (unpack v).2 = v := by
  have hv := v.toNat_lt
  apply UInt64.toNat_inj.mp
  rw [pack_toNat]
  unfold unpack
  rw [UInt64.toNat_toUInt32, UInt64.toNat_toUInt32, UInt64.toNat_shiftRight,
    Nat.shiftRight_eq_div_pow]
  change v.toNat / 2 ^ 32 % 2 ^ 32 * 2 ^ 32 + v.toNat % 2 ^ 32 = v.toNat
  omega

/-- The bucket a word holds. -/
def bucket (word : UInt64) : TokenBucket := ⟨(unpack word).1.toNat, (unpack word).2.toNat⟩

theorem bucket_inj {v w : UInt64} (h : bucket v = bucket w) : v = w := by
  have htokens := UInt32.toNat_inj.mp (congrArg TokenBucket.tokens h)
  have hstamp := UInt32.toNat_inj.mp (congrArg TokenBucket.stamp h)
  rw [← pack_unpack v, ← pack_unpack w, htokens, hstamp]

theorem bucket_pack {millibytes millis : Nat} (hmillibytes : millibytes < 2 ^ 32)
    (now : UInt32) (hnow : now.toNat = millis) :
    bucket (pack (UInt32.ofNat millibytes) now) = ⟨millibytes, millis⟩ := by
  unfold bucket
  rw [unpack_pack, hnow, UInt32.toNat_ofNat_of_lt' hmillibytes]

theorem rate_le : budget.rate ≤ (2 ^ 32 - 1) / MILLI := UInt32.le_iff_toNat_le.mp budget.clamped

/-- A second's worth fits, so nothing saturates. -/
theorem cap_eq : budget.cap = budget.rate * MILLI := by
  have hrate := budget.rate_le
  unfold cap saturatingMul
  unfold MILLI at *
  omega

theorem cap_lt : budget.cap < 2 ^ 32 := by
  have hrate := budget.rate_le
  rw [cap_eq]
  unfold MILLI at *
  omega

theorem bucket_initial : bucket budget.initial = ⟨budget.cap, 0⟩ := by
  have hcap := budget.cap_lt
  rw [cap_eq] at hcap ⊢
  exact bucket_pack hcap 0 rfl

theorem wanted_eq_some {bytes want : Nat} :
    budget.wanted bytes = some want ↔ want = bytes * MILLI ∧ bytes ≤ budget.rate := by
  have hrate := budget.rate_le
  have hcap := budget.cap_eq
  unfold wanted saturatingMul
  unfold MILLI at *
  constructor
  · intro h
    split at h
    · cases h
      omega
    · cases h
  · rintro ⟨rfl, hle⟩
    rw [if_pos (by omega)]

/-- What an attempt finds available is the balance of the bucket: no sum of it saturates. -/
theorem available_eq (old : UInt64) (now : UInt32) :
    min (saturatingAdd (unpack old).1.toNat
        (saturatingMul (now.toNat - (unpack old).2.toNat) budget.rate)) budget.cap =
      (bucket old).available budget.rate budget.cap now.toNat := by
  have hrate := budget.rate_le
  have hnow := now.toNat_lt
  have htokens := (unpack old).1.toNat_lt
  have hrefill : (now.toNat - (unpack old).2.toNat) * budget.rate ≤ 2 ^ 32 * (2 ^ 32 / 1000) := by
    apply Nat.mul_le_mul
    · omega
    · unfold MILLI at hrate
      omega
  unfold saturatingAdd saturatingMul TokenBucket.available bucket
  dsimp only
  omega

variable {budget} {want : Nat} {old new : UInt64} {now : UInt32}

/-- An attempt that spends had the tokens, and means to store what is left of them. -/
theorem attempt_spend (h : budget.attempt want old now = .spend new) :
    want ≤ (bucket old).available budget.rate budget.cap now.toNat ∧
      bucket new = (bucket old).spend budget.rate budget.cap now.toNat want := by
  have hcap := budget.cap_lt
  have hle : (bucket old).available budget.rate budget.cap now.toNat ≤ budget.cap :=
    TokenBucket.available_le_cap
  unfold attempt at h
  dsimp only at h
  rw [available_eq] at h
  split at h
  · cases h
  · next henough =>
    cases h
    exact ⟨Nat.not_lt.mp henough, bucket_pack (by omega) now rfl⟩

/-- An attempt that refuses had too few, and means to store all of them. -/
theorem attempt_refuse (h : budget.attempt want old now = .refuse new) :
    (bucket old).available budget.rate budget.cap now.toNat < want ∧
      bucket new = (bucket old).spend budget.rate budget.cap now.toNat 0 := by
  have hcap := budget.cap_lt
  have hle : (bucket old).available budget.rate budget.cap now.toNat ≤ budget.cap :=
    TokenBucket.available_le_cap
  unfold attempt at h
  dsimp only at h
  rw [available_eq] at h
  split at h
  · next hshort =>
    cases h
    exact ⟨hshort, bucket_pack (by omega) now rfl⟩
  · cases h

/-- What a call has taken from the word: nothing, or its bytes at `now`, which were there. -/
inductive Charge (budget : ProbeBudget) (word : UInt64) (now : UInt32) : Nat → UInt64 → Prop where
  | untouched : Charge budget word now 0 word
  | taken {bytes : Nat} {word' : UInt64}
    (henough : bytes * MILLI ≤ (bucket word).available budget.rate budget.cap now.toNat)
    (hword : bucket word' = (bucket word).spend budget.rate budget.cap now.toNat (bytes * MILLI)) :
    Charge budget word now bytes word'

/-- A call charges its bytes when it may send, and nothing when it may not. -/
theorem tryConsume_charge {bytes : Nat} {word word' : UInt64} {may : Bool}
    (h : budget.tryConsume word bytes now = (may, word')) :
    Charge budget word now (if may then bytes else 0) word' := by
  unfold tryConsume at h
  cases hwant : budget.wanted bytes with
  | none =>
    rw [hwant] at h
    cases h
    exact .untouched
  | some want =>
    obtain ⟨rfl, -⟩ := budget.wanted_eq_some.mp hwant
    rw [hwant] at h
    dsimp only at h
    cases hattempt : budget.attempt (bytes * MILLI) word now with
    | refuse store =>
      rw [hattempt] at h
      cases h
      obtain ⟨-, hstore⟩ := attempt_refuse hattempt
      exact .taken (by simp) (by simpa using hstore)
    | spend store =>
      rw [hattempt] at h
      cases h
      obtain ⟨henough, hstore⟩ := attempt_spend hattempt
      exact .taken henough hstore

/-! ### The workers -/

/-- Where a worker stands in a call for `bytes`. -/
inductive Call where
  | idle
  | entered (bytes : Nat)
  | loaded (bytes : Nat) (old : UInt64)
  | ready (bytes : Nat) (old : UInt64) (now : UInt32)

/-- The clock in milliseconds, the word with what it held before, and the workers. -/
structure Shared (ι : Type*) where
  clock : Nat
  word : UInt64
  past : List UInt64
  calls : ι → Call

variable {ι : Type*}

namespace Shared

/-- A budget nobody has called on. -/
def fresh (ι : Type*) (budget : ProbeBudget) : Shared ι where
  clock := 0
  word := budget.initial
  past := []
  calls _ := .idle

/-- Every value the word has held. -/
def history (s : Shared ι) : List UInt64 := s.word :: s.past

def store (s : Shared ι) (new : UInt64) : Shared ι := { s with word := new, past := s.history }

def move [DecidableEq ι] (s : Shared ι) (i : ι) (call : Call) : Shared ι :=
  { s with calls := Function.update s.calls i call }

end Shared

/-! ### What the workers keep -/

variable (budget)

/-- What a worker holds is something the word held, at a time it was read after. -/
def Call.Sound (s : Shared ι) : Call → Prop
  | .idle => True
  | .entered bytes => bytes ≤ budget.rate
  | .loaded bytes old => bytes ≤ budget.rate ∧ old ∈ s.history
  | .ready bytes old now => bytes ≤ budget.rate ∧ old ∈ s.history ∧
    (bucket old).stamp ≤ now.toNat ∧ now.toNat ≤ s.clock

/-- The word only goes on, and is never ahead of the clock. -/
structure Sound (s : Shared ι) : Prop where
  clock : s.clock < 2 ^ 32
  full : ∀ word ∈ s.history, (bucket word).tokens ≤ budget.cap
  stamp : ∀ word ∈ s.history, (bucket word).stamp ≤ s.clock
  order : ∀ word ∈ s.history, word = s.word ∨ (bucket word).Before (bucket s.word)
  calls : ∀ i, Call.Sound budget s (s.calls i)

variable {budget} {s s' : Shared ι}

theorem Call.Sound.mono {call : Call} (h : Call.Sound budget s call)
    (hhistory : s.history ⊆ s'.history) (hclock : s.clock ≤ s'.clock) :
    Call.Sound budget s' call := by
  cases call with
  | idle => trivial
  | entered bytes => exact h
  | loaded bytes old => exact ⟨h.1, hhistory h.2⟩
  | ready bytes old now =>
    obtain ⟨hbytes, hold, hstamp, hnow⟩ := h
    exact ⟨hbytes, hhistory hold, hstamp, Nat.le_trans hnow hclock⟩

namespace Sound

theorem fresh (budget : ProbeBudget) : Sound budget (Shared.fresh ι budget) := by
  have hinitial := budget.bucket_initial
  constructor
  case clock => exact Nat.two_pow_pos 32
  case full =>
    intro word hword
    rw [List.mem_singleton.mp hword]
    change (bucket budget.initial).tokens ≤ budget.cap
    rw [hinitial]
  case stamp =>
    intro word hword
    rw [List.mem_singleton.mp hword]
    change (bucket budget.initial).stamp ≤ 0
    rw [hinitial]
  case order =>
    intro word hword
    exact .inl (List.mem_singleton.mp hword)
  case calls =>
    intro i
    trivial

theorem pass (h : Sound budget s) {clock : Nat} (hclock : s.clock ≤ clock)
    (hwrap : clock < 2 ^ 32) : Sound budget { s with clock := clock } where
  clock := hwrap
  full := h.full
  stamp word hword := Nat.le_trans (h.stamp word hword) hclock
  order := h.order
  calls j := (h.calls j).mono (List.Subset.refl _) hclock

/-- What is stored is new to the word, or what it holds already. -/
theorem store (h : Sound budget s) {now : Nat} (hstamp : (bucket s.word).stamp ≤ now)
    (hnow : now ≤ s.clock) (hwant : want ≤ (bucket s.word).available budget.rate budget.cap now)
    (hnew : bucket new = (bucket s.word).spend budget.rate budget.cap now want) :
    Sound budget (s.store new) := by
  have hgoes : new = s.word ∨ (bucket s.word).Before (bucket new) := by
    rw [hnew]
    rcases TokenBucket.spend_cases hstamp hwant with ⟨hsame, -⟩ | hbefore
    · exact .inl (bucket_inj (hnew.trans hsame))
    · exact .inr hbefore
  constructor
  case clock => exact h.clock
  case full =>
    intro word hword
    rcases List.mem_cons.mp hword with rfl | hword
    · rw [hnew]
      exact Nat.le_trans (Nat.sub_le _ _) TokenBucket.available_le_cap
    · exact h.full word hword
  case stamp =>
    intro word hword
    rcases List.mem_cons.mp hword with rfl | hword
    · rw [hnew]
      exact hnow
    · exact h.stamp word hword
  case order =>
    intro word hword
    rcases List.mem_cons.mp hword with rfl | hword
    · exact .inl rfl
    · rcases hgoes with rfl | hgoes
      · exact h.order word hword
      · right
        rcases h.order word hword with rfl | hbefore
        · exact hgoes
        · exact hbefore.trans hgoes
  case calls =>
    intro j
    apply (h.calls j).mono
    · exact List.subset_cons_self _ _
    · exact Nat.le_refl _

/-- No worker holds a word before it is stored. -/
theorem unheld (h : Sound budget s) (hnew : (bucket s.word).Before (bucket new))
    (j : ι) (bytes : Nat) (now : UInt32) : s.calls j ≠ .ready bytes new now := by
  intro hcall
  have hready := h.calls j
  rw [hcall] at hready
  rcases h.order new hready.2.1 with rfl | hbefore
  · exact TokenBucket.Before.irrefl hnew
  · exact TokenBucket.Before.irrefl (hbefore.trans hnew)

end Sound

/-- What a step is, to who counts the bytes. -/
inductive Event (ι : Type*) where
  /-- The clock goes on. -/
  | passes
  /-- A worker goes on, and nothing is decided. -/
  | moves (i : ι)
  | admits (i : ι) (bytes now : Nat)
  | refuses (i : ι)
  | loses (i : ι)
  deriving DecidableEq

namespace Event

/-- The bytes admitted. -/
def admitted : Event ι → Nat
  | .admits _ bytes _ => bytes
  | _ => 0

/-- The bytes admitted by an attempt that read the clock at `since` or later. -/
def timely (since : Nat) : Event ι → Nat
  | .admits _ bytes now => if since ≤ now then bytes else 0
  | _ => 0

/-- Bytes are admitted by an attempt that read the clock before `since`. -/
def isLate (since : Nat) : Event ι → Bool
  | .admits _ bytes now => now < since && 0 < bytes
  | _ => false

end Event

/-! ### An interval -/

variable (budget) in
/-- What was admitted on the way from `s₀` to `s`: timely bytes, and late admissions. Once the word
has been written, no attempt that read the clock earlier can exchange it. -/
inductive Interval (s₀ s : Shared ι) : Nat → Nat → Prop where
  | untouched (hclock : s₀.clock ≤ s.clock) (hword : s.word = s₀.word) : Interval s₀ s 0 0
  | written {timely late : Nat} (hclock : s₀.clock ≤ s.clock)
    (hheld : ∀ j bytes now, s.calls j = .ready bytes s.word now → s₀.clock ≤ now.toNat)
    (hlate : late ≤ 1)
    (hspent : timely * MILLI + (bucket s.word).headroom budget.rate budget.cap s₀.clock s.clock ≤
      budget.cap + (s.clock - s₀.clock) * budget.rate) : Interval s₀ s timely late

theorem Interval.clock_le {s₀ : Shared ι} {timely late : Nat}
    (h : Interval budget s₀ s timely late) : s₀.clock ≤ s.clock := by
  cases h with
  | untouched hclock | written hclock => exact hclock

theorem Interval.pass {s₀ : Shared ι} {timely late : Nat}
    (h : Interval budget s₀ s timely late) (hs : Sound budget s) {clock : Nat}
    (hclock : s.clock ≤ clock) : Interval budget s₀ { s with clock := clock } timely late := by
  have hstart := h.clock_le
  cases h with
  | untouched _ hword => exact .untouched (Nat.le_trans hstart hclock) hword
  | written _ hheld hlate hspent =>
    refine .written (Nat.le_trans hstart hclock) hheld hlate ?_
    have hstamp := hs.stamp s.word List.mem_cons_self
    have hlater : (bucket s.word).headroom budget.rate budget.cap s₀.clock clock = _ :=
      TokenBucket.headroom_later hstamp hstart hclock
    have hsplit : clock - s₀.clock = s.clock - s₀.clock + (clock - s.clock) := by omega
    rw [hlater, hsplit, Nat.add_mul]
    omega

/-- Over an interval, what was admitted on a clock read in it stays below the ceiling, and no more
than one attempt came late. -/
theorem Interval.ceiling {s₀ : Shared ι} {timely late : Nat}
    (h : Interval budget s₀ s timely late) :
    timely ≤ budget.rate + budget.rate * (s.clock - s₀.clock) / 1000 ∧ late ≤ 1 := by
  cases h with
  | untouched => exact ⟨Nat.zero_le _, Nat.zero_le _⟩
  | written _ _ hlate hspent =>
    refine ⟨?_, hlate⟩
    rw [cap_eq] at hspent
    unfold MILLI at hspent
    rw [Nat.mul_comm budget.rate (s.clock - s₀.clock), Nat.add_comm budget.rate,
      ← Nat.sub_le_iff_le_add, Nat.le_div_iff_mul_le (by decide), Nat.sub_mul]
    omega

/-! ### Steps -/

variable (budget) [DecidableEq ι]

/-- One atomic step of a worker, or of the clock. -/
inductive Step : Event ι → Shared ι → Shared ι → Prop where
  /-- The clock goes on, before it wraps. -/
  | pass {s : Shared ι} {clock : Nat} (hclock : s.clock ≤ clock) (hwrap : clock < 2 ^ 32) :
    Step .passes s { s with clock := clock }
  | enter {s : Shared ι} {i : ι} {bytes : Nat} (hcall : s.calls i = .idle)
    (hwant : (budget.wanted bytes).isSome = true) : Step (.moves i) s (s.move i (.entered bytes))
  /-- More than a second's worth is refused before anything is loaded. -/
  | turnAway {s : Shared ι} {i : ι} {bytes : Nat} (hcall : s.calls i = .idle)
    (hwant : budget.wanted bytes = none) : Step (.refuses i) s s
  | load {s : Shared ι} {i : ι} {bytes : Nat} {old : UInt64} (hcall : s.calls i = .entered bytes)
    (hread : old ∈ s.history) : Step (.moves i) s (s.move i (.loaded bytes old))
  | read {s : Shared ι} {i : ι} {bytes : Nat} {old : UInt64}
    (hcall : s.calls i = .loaded bytes old) :
    Step (.moves i) s (s.move i (.ready bytes old (UInt32.ofNat s.clock)))
  | grant {s : Shared ι} {i : ι} {bytes : Nat} {now : UInt32} {new : UInt64}
    (hcall : s.calls i = .ready bytes s.word now)
    (hspend : budget.attempt (bytes * MILLI) s.word now = .spend new) :
    Step (.admits i bytes now.toNat) s ((s.store new).move i .idle)
  | lose {s : Shared ι} {i : ι} {bytes : Nat} {old new : UInt64} {now : UInt32}
    (hcall : s.calls i = .ready bytes old now)
    (hspend : budget.attempt (bytes * MILLI) old now = .spend new) (hlost : old ≠ s.word) :
    Step (.loses i) s (s.move i (.entered bytes))
  /-- A refusal stores the refilled balance, if that is not what it loaded. -/
  | refuse {s : Shared ι} {i : ι} {bytes : Nat} {now : UInt32} {new : UInt64}
    (hcall : s.calls i = .ready bytes s.word now)
    (hrefuse : budget.attempt (bytes * MILLI) s.word now = .refuse new) (hnew : new ≠ s.word) :
    Step (.refuses i) s ((s.store new).move i .idle)
  | refuseOnly {s : Shared ι} {i : ι} {bytes : Nat} {old new : UInt64} {now : UInt32}
    (hcall : s.calls i = .ready bytes old now)
    (hrefuse : budget.attempt (bytes * MILLI) old now = .refuse new)
    (hkept : new = old ∨ old ≠ s.word) : Step (.refuses i) s (s.move i .idle)

/-- The states the workers of a budget reach. -/
def Run : Shared ι → Prop :=
  Reachable (· = Shared.fresh ι budget) fun s s' => ∃ event, budget.Step event s s'

variable {budget} {i : ι} {event : Event ι}

namespace Sound

theorem move (h : Sound budget s) {call : Call} (hcall : Call.Sound budget s call) :
    Sound budget (s.move i call) := by
  refine ⟨h.clock, h.full, h.stamp, h.order, fun j => ?_⟩
  unfold Shared.move
  dsimp only
  rw [Function.update_apply]
  split
  · exact hcall
  · exact h.calls j

theorem step (h : Sound budget s) (hstep : budget.Step event s s') : Sound budget s' := by
  cases hstep with
  | pass hclock hwrap => exact h.pass hclock hwrap
  | @enter _ i bytes hcall hwant =>
    obtain ⟨want, hwant⟩ := Option.isSome_iff_exists.mp hwant
    exact h.move (budget.wanted_eq_some.mp hwant).2
  | turnAway => exact h
  | @load _ i bytes old hcall hread =>
    have hbytes := h.calls i
    rw [hcall] at hbytes
    exact h.move ⟨hbytes, hread⟩
  | @read _ i bytes old hcall =>
    have hloaded := h.calls i
    rw [hcall] at hloaded
    have hclock : (UInt32.ofNat s.clock).toNat = s.clock := UInt32.toNat_ofNat_of_lt' h.clock
    refine h.move ⟨hloaded.1, hloaded.2, ?_, ?_⟩
    · rw [hclock]
      exact h.stamp old hloaded.2
    · exact Nat.le_of_eq hclock
  | @grant _ i bytes now new hcall hspend =>
    have hready := h.calls i
    rw [hcall] at hready
    obtain ⟨hwant, hnew⟩ := attempt_spend hspend
    exact (h.store hready.2.2.1 hready.2.2.2 hwant hnew).move trivial
  | @lose _ i bytes old new now hcall =>
    have hready := h.calls i
    rw [hcall] at hready
    exact h.move hready.1
  | @refuse _ i bytes now new hcall hrefuse =>
    have hready := h.calls i
    rw [hcall] at hready
    obtain ⟨-, hnew⟩ := attempt_refuse hrefuse
    exact (h.store hready.2.2.1 hready.2.2.2 (Nat.zero_le _) hnew).move trivial
  | refuseOnly => exact h.move trivial

theorem of_run (h : budget.Run s) : Sound budget s := by
  apply h.invariant
  · rintro _ rfl
    exact fresh budget
  · rintro s s' ⟨event, hstep⟩ hs
    exact hs.step hstep

end Sound

/-! ### Runs over an interval -/

namespace Interval

variable {s₀ : Shared ι} {timely late : Nat}

theorem move (h : Interval budget s₀ s timely late) {call : Call}
    (hcall : ∀ bytes now, call = .ready bytes s.word now → s₀.clock ≤ now.toNat) :
    Interval budget s₀ (s.move i call) timely late := by
  cases h with
  | untouched hclock hword => exact .untouched hclock hword
  | written hclock hheld hlate hspent =>
    refine .written hclock (fun j bytes now hj => ?_) hlate hspent
    change Function.update s.calls i call j = _ at hj
    rw [Function.update_apply] at hj
    split at hj
    · exact hcall bytes now hj
    · exact hheld j bytes now hj

/-- Storing what is left of `bytes` more. -/
theorem store (h : Interval budget s₀ s timely late) (hs : Sound budget s) (bytes : Nat)
    {bytes₁ : Nat} {now : UInt32} (hcall : s.calls i = .ready bytes₁ s.word now)
    (hwant : bytes * MILLI ≤ (bucket s.word).available budget.rate budget.cap now.toNat)
    (hnew : bucket new = (bucket s.word).spend budget.rate budget.cap now.toNat (bytes * MILLI)) :
    Interval budget s₀ ((s.store new).move i .idle)
      (timely + if s₀.clock ≤ now.toNat then bytes else 0)
      (late + if now.toNat < s₀.clock ∧ 0 < bytes then 1 else 0) := by
  have hready := hs.calls i
  rw [hcall] at hready
  obtain ⟨-, -, hstamp, hnow⟩ := hready
  have hfull := hs.full s.word List.mem_cons_self
  have hstart := h.clock_le
  refine move ?_ (by rintro _ _ ⟨⟩)
  rcases TokenBucket.spend_cases hstamp hwant with ⟨hsame, hzero⟩ | hbefore
  · -- nothing was asked for and no time has passed
    have hbytes : bytes = 0 := by
      unfold MILLI at hzero
      omega
    have hword : new = s.word := bucket_inj (hnew.trans hsame)
    subst hbytes hword
    rw [ite_self, if_neg (fun h => Nat.lt_irrefl 0 h.2)]
    cases h with
    | untouched hclock hword => exact .untouched hclock hword
    | written hclock hheld hlate hspent => exact .written hclock hheld hlate hspent
  · rw [← hnew] at hbefore
    have hheld : ∀ j bytes now, s.calls j = .ready bytes new now → s₀.clock ≤ now.toNat :=
      fun j bytes now hj => absurd hj (hs.unheld hbefore j bytes now)
    by_cases hlate : s₀.clock ≤ now.toNat
    · rw [if_pos hlate, if_neg (fun h => Nat.not_lt.mpr hlate h.1)]
      have htaken := TokenBucket.headroom_spend hfull hstamp hlate hnow hwant
      rw [← hnew] at htaken
      cases h with
      | untouched =>
        refine .written hstart hheld (Nat.zero_le _) ?_
        have hle : (bucket s.word).headroom budget.rate budget.cap s₀.clock s.clock ≤ _ :=
          TokenBucket.headroom_le hstart
        change (0 + bytes) * MILLI + (bucket new).headroom _ _ _ s.clock ≤ _
        rw [Nat.zero_add]
        exact Nat.le_trans htaken hle
      | written _ _ hcount hspent =>
        refine .written hstart hheld hcount ?_
        change (timely + bytes) * MILLI + (bucket new).headroom _ _ _ s.clock ≤
          _ + (s.clock - _) * _
        rw [Nat.add_mul]
        omega
    · rw [if_neg hlate]
      cases h with
      | untouched =>
        refine .written hstart hheld ?_ ?_
        · split <;> omega
        · rw [Nat.zero_mul, Nat.zero_add]
          exact TokenBucket.headroom_le hstart
      | written _ hfresh => exact absurd (hfresh i bytes₁ now hcall) hlate

theorem step (h : Interval budget s₀ s timely late) (hs : Sound budget s)
    (hstep : budget.Step event s s') : Interval budget s₀ s' (timely + event.timely s₀.clock)
      (late + (event.isLate s₀.clock).toNat) := by
  cases hstep with
  | pass hclock => exact h.pass hs hclock
  | enter | load | lose | refuseOnly => exact h.move (by rintro _ _ ⟨⟩)
  | turnAway => exact h
  | read =>
    have hclock : (UInt32.ofNat s.clock).toNat = s.clock := UInt32.toNat_ofNat_of_lt' hs.clock
    refine h.move ?_
    rintro _ _ ⟨⟩
    rw [hclock]
    exact h.clock_le
  | @grant _ i bytes now new hcall hspend =>
    obtain ⟨hwant, hnew⟩ := attempt_spend hspend
    have hlate : (Event.isLate s₀.clock (.admits i bytes now.toNat)).toNat =
        if now.toNat < s₀.clock ∧ 0 < bytes then 1 else 0 := by
      by_cases hlt : now.toNat < s₀.clock <;> by_cases hpos : 0 < bytes <;>
        simp [Event.isLate, hlt, hpos]
    rw [hlate]
    exact h.store hs bytes hcall hwant hnew
  | refuse hcall hrefuse =>
    obtain ⟨-, hnew⟩ := attempt_refuse hrefuse
    rw [← Nat.zero_mul MILLI] at hnew
    have hstored := h.store hs 0 hcall (by rw [Nat.zero_mul]; exact Nat.zero_le _) hnew
    rw [ite_self, if_neg (fun h => Nat.lt_irrefl 0 h.2)] at hstored
    exact hstored

theorem run {events : List (Event ι)} (h : Interval budget s₀ s timely late)
    (hs : Sound budget s) (hrun : Trace budget.Step s events s') :
    Interval budget s₀ s' (timely + (events.map (Event.timely s₀.clock)).sum)
      (late + events.countP (Event.isLate s₀.clock)) := by
  induction hrun generalizing timely late with
  | nil => exact h
  | @cons event events s s' s'' hstep _ ih =>
    have hnext := ih (h.step hs hstep) (hs.step hstep)
    have hcount : (event.isLate s₀.clock).toNat + events.countP (Event.isLate s₀.clock) =
        (event :: events).countP (Event.isLate s₀.clock) := by
      rw [List.countP_cons, Nat.add_comm]
      cases event.isLate s₀.clock <;> rfl
    rw [Nat.add_assoc, Nat.add_assoc, hcount] at hnext
    exact hnext

end Interval

/-! ### The ceiling -/

theorem new_rate (rate : UInt32) :
    (ProbeBudget.new rate).rate = min rate.toNat ((2 ^ 32 - 1) / MILLI) := by
  change (if rate ≤ MAX_BYTES_PER_SEC then rate else MAX_BYTES_PER_SEC).toNat = _
  have hmax : MAX_BYTES_PER_SEC.toNat = (2 ^ 32 - 1) / MILLI := rfl
  split
  · next hle =>
    have hle := UInt32.le_iff_toNat_le.mp hle
    omega
  · next hlt =>
    have hlt := mt UInt32.le_iff_toNat_le.mpr hlt
    omega

/-- A step of the packed word is one of the bucket it holds, to the last token; what refuses or
loses the exchange leaves every later balance as it was. -/
structure Metered (budget : ProbeBudget) (s : Shared ι) (event : Event ι) (s' : Shared ι) :
    Prop where
  clock : (UInt32.ofNat s.clock).toNat = s.clock
  exact : s'.word = s.word ∧ event.admitted = 0 ∨ ∃ now, now ≤ s.clock ∧
    event.admitted * MILLI ≤ (bucket s.word).available budget.rate budget.cap now ∧
      bucket s'.word = (bucket s.word).spend budget.rate budget.cap now (event.admitted * MILLI)
  spared : ∀ i, event = .refuses i ∨ event = .loses i → ∀ later, s.clock ≤ later →
    (bucket s'.word).available budget.rate budget.cap later =
      (bucket s.word).available budget.rate budget.cap later

theorem Sound.metered (hs : Sound budget s) (hstep : budget.Step event s s') :
    Metered budget s event s' := by
  have hclock : (UInt32.ofNat s.clock).toNat = s.clock := UInt32.toNat_ofNat_of_lt' hs.clock
  cases hstep with
  | @grant _ i bytes now new hcall hspend =>
    have hready := hs.calls i
    rw [hcall] at hready
    obtain ⟨hwant, hnew⟩ := attempt_spend hspend
    refine ⟨hclock, .inr ⟨now.toNat, hready.2.2.2, hwant, hnew⟩, ?_⟩
    rintro i (h | h) <;> cases h
  | @refuse _ i bytes now new hcall hrefuse =>
    have hready := hs.calls i
    rw [hcall] at hready
    obtain ⟨-, hnew⟩ := attempt_refuse hrefuse
    have hzero : (Event.refuses i).admitted * MILLI = 0 := Nat.zero_mul _
    refine ⟨hclock, .inr ⟨now.toNat, hready.2.2.2, ?_, ?_⟩, ?_⟩
    · rw [hzero]
      exact Nat.zero_le _
    · rw [hzero]
      exact hnew
    intro _ _ later hlater
    change (bucket new).available _ _ later = _
    rw [hnew]
    exact TokenBucket.available_spend_zero hready.2.2.1 (Nat.le_trans hready.2.2.2 hlater)
  | _ => exact ⟨hclock, .inl ⟨rfl, rfl⟩, fun _ _ _ _ => rfl⟩

theorem Sound.admitted_le (hs : Sound budget s) (hstep : budget.Step event s s') :
    event.admitted ≤ budget.rate := by
  cases hstep with
  | @grant _ i bytes now new hcall =>
    have hready := hs.calls i
    rw [hcall] at hready
    exact hready.1
  | _ => exact Nat.zero_le _

theorem Sound.admitted_run {events : List (Event ι)} (hs : Sound budget s)
    (hrun : Trace budget.Step s events s') : ∀ event ∈ events, event.admitted ≤ budget.rate := by
  induction hrun with
  | nil => exact fun _ h => absurd h List.not_mem_nil
  | cons hstep _ ih =>
    intro event hmem
    rcases List.mem_cons.mp hmem with rfl | hmem
    · exact hs.admitted_le hstep
    · exact ih (hs.step hstep) event hmem

omit [DecidableEq ι] in
/-- What is admitted late is admitted at once. -/
theorem Event.sum_admitted_le {events : List (Event ι)} {most : Nat}
    (h : ∀ event ∈ events, event.admitted ≤ most) (since : Nat) :
    (events.map admitted).sum ≤
      (events.map (timely since)).sum + events.countP (isLate since) * most := by
  induction events with
  | nil => exact Nat.zero_le _
  | cons event events ih =>
    obtain ⟨hevent, hrest⟩ := List.forall_mem_cons.mp h
    have hone : event.admitted ≤ event.timely since + if event.isLate since then most else 0 := by
      cases event with
      | admits i bytes now =>
        change bytes ≤ most at hevent
        change bytes ≤ (if since ≤ now then bytes else 0) + if (now < since && 0 < bytes) = true then
          most else 0
        by_cases hlate : since ≤ now
        · rw [if_pos hlate]
          exact Nat.le_add_right _ _
        · rw [if_neg hlate]
          by_cases hpos : 0 < bytes
          · simpa [hpos, Nat.not_le.mp hlate] using hevent
          · omega
      | _ => exact Nat.zero_le _
    have hsum := ih hrest
    rw [List.map_cons, List.map_cons, List.sum_cons, List.sum_cons, List.countP_cons, Nat.add_mul]
    have hcount : (if event.isLate since then 1 else 0) * most =
        if event.isLate since then most else 0 := by
      split <;> simp
    omega

/-- Between any two instants of a run, the attempts that read the clock after the first admit no
more than the ceiling, and at most one that read it earlier still comes in; no attempt admits
more than a second's worth. -/
theorem probe_reply_ceiling (rate : UInt32) {s s' : Shared ι} {events : List (Event ι)}
    (hreached : (ProbeBudget.new rate).Run s)
    (hrun : Trace (ProbeBudget.new rate).Step s events s') :
    (ProbeBudget.new rate).rate = min rate.toNat ((2 ^ 32 - 1) / MILLI) ∧
      (events.map (Event.timely s.clock)).sum ≤ (ProbeBudget.new rate).rate +
        (ProbeBudget.new rate).rate * (s'.clock - s.clock) / 1000 ∧
      events.countP (Event.isLate s.clock) ≤ 1 ∧
      (∀ event ∈ events, event.admitted ≤ (ProbeBudget.new rate).rate) ∧
      (events.map Event.admitted).sum ≤ 2 * (ProbeBudget.new rate).rate +
        (ProbeBudget.new rate).rate * (s'.clock - s.clock) / 1000 ∧
      ∀ (event : Event ι) (mid mid' : Shared ι), (ProbeBudget.new rate).Run mid →
        (ProbeBudget.new rate).Step event mid mid' →
          Metered (ProbeBudget.new rate) mid event mid' := by
  have hs := Sound.of_run hreached
  have hinterval := (Interval.untouched (Nat.le_refl _) rfl).run hs hrun
  rw [Nat.zero_add, Nat.zero_add] at hinterval
  obtain ⟨htimely, hlate⟩ := hinterval.ceiling
  have hadmitted := hs.admitted_run hrun
  refine ⟨new_rate rate, htimely, hlate, hadmitted, ?_, ?_⟩
  · have hsum := Event.sum_admitted_le hadmitted s.clock
    have hmost := Nat.mul_le_mul_right (ProbeBudget.new rate).rate hlate
    omega
  · intro event mid mid' hmid hstep
    exact (Sound.of_run hmid).metered hstep

/-- A budget with two workers on it. -/
def pair (clock : Nat) (word : UInt64) (past : List UInt64) (first second : Call) :
    Shared Bool where
  clock := clock
  word := word
  past := past
  calls i := if i then second else first

theorem pair_move_first {clock : Nat} {word : UInt64} {past : List UInt64}
    {first second : Call} (call : Call) :
    (pair clock word past first second).move false call = pair clock word past call second := by
  unfold Shared.move pair
  congr
  funext i
  cases i <;> rfl

theorem pair_move_second {clock : Nat} {word : UInt64} {past : List UInt64}
    {first second : Call} (call : Call) :
    (pair clock word past first second).move true call = pair clock word past first call := by
  unfold Shared.move pair
  congr
  funext i
  cases i <;> rfl

/-- The word with a second's worth at the start, and the two it is exchanged for. -/
def fullWord : UInt64 := (ProbeBudget.new 1000).initial

def spentWord : UInt64 := pack 0 0

def spentLaterWord : UInt64 := pack 0 1000

/-- The first worker read the clock at the start and was held up for a second. -/
def stalled : Shared Bool := pair 1000 fullWord [] (.ready 1000 fullWord 0) .idle

/-- Then both are admitted. -/
def resumed : Shared Bool := pair 1000 spentLaterWord [spentWord, fullWord] .idle .idle

def resumedEvents : List (Event Bool) :=
  [.admits false 1000 0, .moves true, .moves true, .moves true, .admits true 1000 1000]

theorem stalled_run : (ProbeBudget.new 1000).Run stalled := by
  have hfresh : (ProbeBudget.new 1000).Run (pair 0 fullWord [] .idle .idle) := by
    apply Reachable.base
    unfold pair Shared.fresh
    congr
    funext i
    cases i <;> rfl
  have hentered : (ProbeBudget.new 1000).Run (pair 0 fullWord [] (.entered 1000) .idle) := by
    rw [← pair_move_first]
    exact hfresh.step ⟨_, .enter rfl (by decide +kernel)⟩
  have hloaded : (ProbeBudget.new 1000).Run (pair 0 fullWord [] (.loaded 1000 fullWord) .idle) := by
    rw [← pair_move_first]
    exact hentered.step ⟨_, .load rfl List.mem_cons_self⟩
  have hready : (ProbeBudget.new 1000).Run (pair 0 fullWord [] (.ready 1000 fullWord 0) .idle) := by
    rw [← pair_move_first]
    exact hloaded.step ⟨_, .read rfl⟩
  exact hready.step ⟨_, .pass (Nat.zero_le 1000) (by decide)⟩

theorem stalled_trace : Trace (ProbeBudget.new 1000).Step stalled resumedEvents resumed := by
  have hadmit : (ProbeBudget.new 1000).Step (.admits false 1000 (0 : UInt32).toNat) stalled
      ((stalled.store spentWord).move false .idle) := .grant rfl (by decide +kernel)
  have henter : (ProbeBudget.new 1000).Step (.moves true) (pair 1000 spentWord [fullWord] .idle .idle)
      ((pair 1000 spentWord [fullWord] .idle .idle).move true (.entered 1000)) :=
    .enter rfl (by decide +kernel)
  have hload : (ProbeBudget.new 1000).Step (.moves true)
      (pair 1000 spentWord [fullWord] .idle (.entered 1000))
      ((pair 1000 spentWord [fullWord] .idle (.entered 1000)).move true (.loaded 1000 spentWord)) :=
    .load rfl List.mem_cons_self
  have hread : (ProbeBudget.new 1000).Step (.moves true)
      (pair 1000 spentWord [fullWord] .idle (.loaded 1000 spentWord))
      ((pair 1000 spentWord [fullWord] .idle (.loaded 1000 spentWord)).move true
        (.ready 1000 spentWord 1000)) := .read rfl
  have hadmitLater : (ProbeBudget.new 1000).Step (.admits true 1000 (1000 : UInt32).toNat)
      (pair 1000 spentWord [fullWord] .idle (.ready 1000 spentWord 1000))
      (((pair 1000 spentWord [fullWord] .idle (.ready 1000 spentWord 1000)).store
        spentLaterWord).move true .idle) := .grant rfl (by decide +kernel)
  rw [show stalled.store spentWord = pair 1000 spentWord [fullWord] (.ready 1000 fullWord 0) .idle
    from rfl, pair_move_first] at hadmit
  rw [pair_move_second] at henter hload hread
  rw [show (pair 1000 spentWord [fullWord] .idle (.ready 1000 spentWord 1000)).store
    spentLaterWord = pair 1000 spentLaterWord [spentWord, fullWord] .idle
      (.ready 1000 spentWord 1000) from rfl, pair_move_second] at hadmitLater
  exact .cons hadmit (.cons henter (.cons hload (.cons hread (.single hadmitLater))))

/-- Two seconds' worth are admitted in the same millisecond. -/
theorem stalled_exceeds_ceiling : (ProbeBudget.new 1000).Run stalled ∧
    Trace (ProbeBudget.new 1000).Step stalled resumedEvents resumed ∧
    (ProbeBudget.new 1000).rate + (ProbeBudget.new 1000).rate * (resumed.clock - stalled.clock) /
      1000 < (resumedEvents.map Event.admitted).sum :=
  ⟨stalled_run, stalled_trace, by decide +kernel⟩

theorem probe_reply_ceiling_stalled :
    (resumedEvents.map (Event.timely stalled.clock)).sum = 1000 ∧
      resumedEvents.countP (Event.isLate stalled.clock) ≤ 1 :=
  ⟨by decide, (probe_reply_ceiling 1000 stalled_run stalled_trace).2.2.1⟩

/-! ### The plain call -/

section

variable {ι : Type*} [DecidableEq ι] {budget : ProbeBudget} {i : ι}

theorem Shared.move_move (s : Shared ι) (first second : Call) :
    (s.move i first).move i second = s.move i second := by
  unfold Shared.move
  rw [Function.update_idem]

/-- A call that no other worker meets is a run of its worker's own steps, the last of which is its
verdict: it leaves the word the plain call computes, and every worker as it was. -/
theorem tryConsume_trace {s : Shared ι} (hidle : s.calls i = .idle) (bytes : Nat) :
    ∃ steps s', Trace budget.Step s (List.replicate steps (.moves i) ++
        [if (budget.tryConsume s.word bytes (.ofNat s.clock)).1 then
          .admits i bytes (UInt32.ofNat s.clock).toNat else .refuses i]) s' ∧
      s'.calls = s.calls ∧ s'.clock = s.clock ∧
      s'.word = (budget.tryConsume s.word bytes (.ofNat s.clock)).2 := by
  cases hwant : budget.wanted bytes with
  | none =>
    have hplain : budget.tryConsume s.word bytes (.ofNat s.clock) = (false, s.word) := by
      simp only [tryConsume, hwant]
    rw [hplain]
    exact ⟨0, s, .single (.turnAway hidle hwant), rfl, rfl, rfl⟩
  | some want =>
    obtain ⟨rfl, -⟩ := budget.wanted_eq_some.mp hwant
    have hcall (call : Call) : (s.move i call).calls i = call := Function.update_self ..
    have henter : budget.Step (.moves i) s (s.move i (.entered bytes)) :=
      .enter hidle (Option.isSome_of_eq_some hwant)
    have hload := @Step.load budget ι _ _ _ _ _ (hcall (.entered bytes)) List.mem_cons_self
    have hread := @Step.read budget ι _ _ _ _ _ (hcall (.loaded bytes s.word))
    rw [Shared.move_move] at hload hread
    have hbefore : Trace budget.Step s (List.replicate 3 (.moves i)) _ :=
      .cons henter (.cons hload (.single hread))
    have hback : ((s.move i (.ready bytes s.word (.ofNat s.clock))).move i .idle).calls =
        s.calls := by
      rw [Shared.move_move, Shared.move, ← hidle, Function.update_eq_self]
    have hready := hcall (.ready bytes s.word (.ofNat s.clock))
    cases hattempt : budget.attempt (bytes * MILLI) s.word (.ofNat s.clock) with
    | spend store =>
      have hplain : budget.tryConsume s.word bytes (.ofNat s.clock) = (true, store) := by
        simp only [tryConsume, hwant, hattempt]
      rw [hplain]
      exact ⟨3, _, hbefore.append (.single (.grant hready hattempt)), hback, rfl, rfl⟩
    | refuse store =>
      have hplain : budget.tryConsume s.word bytes (.ofNat s.clock) = (false, store) := by
        simp only [tryConsume, hwant, hattempt]
      rw [hplain]
      by_cases hkept : store = s.word
      · refine ⟨3, _, hbefore.append (.single (.refuseOnly hready hattempt (.inl hkept))),
          hback, rfl, hkept.symm⟩
      · exact ⟨3, _, hbefore.append (.single (.refuse hready hattempt hkept)), hback, rfl,
          rfl⟩

/-- The second worker is admitted while the first one stands before its exchange. -/
theorem tryConsume_trace_stalled : ∃ steps s', Trace (ProbeBudget.new 1000).Step stalled
    (List.replicate steps (.moves true) ++ [.admits true 1000 1000]) s' ∧
      s'.calls false = .ready 1000 fullWord 0 ∧ s'.calls true = .idle ∧ s'.word ≠ fullWord := by
  obtain ⟨steps, s', htrace, hcalls, -, hword⟩ :=
    @tryConsume_trace _ _ (.new 1000) true stalled rfl 1000
  rw [if_pos (by decide +kernel)] at htrace
  refine ⟨steps, s', htrace, congrFun hcalls false, congrFun hcalls true, ?_⟩
  rw [hword]
  decide +kernel

end

end ProbeBudget

end BoringTun

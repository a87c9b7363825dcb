import BoringTun.Lib.Account
import BoringTun.RateLimiter
import BoringTun.Tunn.OneByte
import Mathlib.Order.Monotone.Basic

/-!
What a limiter lets through: runs of `gateHandshake` and `resetCount` calls on one limiter,
one after the other, with a clock that never runs back.

Three budgets are at work: the share of a source, counted in a table of hashed slots for one
second; the aggregate, counted until it is reset; and the share of a proven source, counted
in a second table once the aggregate is spent. Each is a `Quota` on the log of a run.

* `SourceCounts.count_reads`: the count of a source is at least the number of its messages in
  the second, whoever shares its slots;
* `Gates`: what one call on the limiter does;
* `rate_limits`: the bounds.
-/

namespace BoringTun

/-! ### Slots -/

namespace SourceSlot

/-- A message in `window` is counted in the slot as it stands. -/
def Current (slot : SourceSlot) (window : UInt32) : Prop :=
  slot.window = window ∨
    (0 < (slot.window - window).toNat ∧ (slot.window - window).toNat < 2 ^ 31)

/-- The slot reads at least `n` in `window`, as far as a 32-bit count can. -/
def Reads (slot : SourceSlot) (window : UInt32) (n : Nat) : Prop :=
  n = 0 ∨ slot.Current window ∧ min n (2 ^ 32 - 1) ≤ slot.count.toNat

variable {slot : SourceSlot} {window : UInt32} {n : Nat}

theorem Reads.of_succ (h : slot.Reads window (n + 1)) : slot.Reads window n := by
  rcases h with h | ⟨hcurrent, hcount⟩
  · cases h
  · exact .inr ⟨hcurrent, by omega⟩

theorem bump_reads (h : slot.Reads window n) : (slot.bump window).Reads window (n + 1) := by
  by_cases hcurrent : slot.Current window
  · have hbump : slot.bump window =
        { slot with count := UInt32.ofNat (min (slot.count.toNat + 1) (2 ^ 32 - 1)) } :=
      if_pos hcurrent
    rw [hbump]
    refine .inr ⟨hcurrent, ?_⟩
    have hval : (UInt32.ofNat (min (slot.count.toNat + 1) (2 ^ 32 - 1))).toNat =
        min (slot.count.toNat + 1) (2 ^ 32 - 1) := by
      rw [UInt32.toNat_ofNat', Nat.mod_eq_of_lt (by omega)]
    rw [hval]
    rcases h with rfl | ⟨-, hcount⟩
    · omega
    · omega
  · have hbump : slot.bump window = ⟨window, 1⟩ := if_neg hcurrent
    have hnone : n = 0 := h.resolve_right fun h => hcurrent h.1
    rw [hbump, hnone]
    exact .inr ⟨.inl rfl, Nat.min_le_left 1 _⟩

end SourceSlot

namespace SourceCounts

/-- The slots of a budget key. -/
def slotsAt (counts : SourceCounts) (key : Nat × Nat) : Nat × Nat :=
  let hash := (counts.hasher key).toNat
  (hash % SOURCE_SLOTS, SOURCE_SLOTS + hash / 2 ^ 32 % SOURCE_SLOTS)

/-- Both slots of a key read at least `n`. -/
structure Reads (counts : SourceCounts) (key : Nat × Nat) (window : UInt32) (n : Nat) : Prop where
  first : (counts.slots (counts.slotsAt key).1).Reads window n
  second : (counts.slots (counts.slotsAt key).2).Reads window n

variable {counts : SourceCounts} {key : Nat × Nat} {window : UInt32} {n : Nat}

theorem reads_zero (counts : SourceCounts) (key : Nat × Nat) (window : UInt32) :
    counts.Reads key window 0 := ⟨.inl rfl, .inl rfl⟩

theorem bumpAt_reads (slot : Nat) {at' : Nat} (h : (counts.slots at').Reads window n) :
    ((counts.bumpAt slot window).slots at').Reads window n := by
  unfold bumpAt
  by_cases heq : at' = slot
  · subst heq
    simp only [Function.update_self]
    exact (SourceSlot.bump_reads h).of_succ
  · simp only [Function.update_of_ne heq]
    exact h

theorem bumpAt_reads_self {slot : Nat} (h : (counts.slots slot).Reads window n) :
    ((counts.bumpAt slot window).slots slot).Reads window (n + 1) := by
  unfold bumpAt
  simp only [Function.update_self]
  exact SourceSlot.bump_reads h

/-- A message of any source leaves every count of the window at least where it was. -/
theorem count_reads_of (h : counts.Reads key window n) (source : Source) :
    (counts.count source window).2.Reads key window n :=
  ⟨bumpAt_reads _ (bumpAt_reads _ h.first), bumpAt_reads _ (bumpAt_reads _ h.second)⟩

/-- A message of the key raises its count. -/
theorem count_reads {source : Source} (h : counts.Reads source.budgetKey window n) :
    min (n + 1) (2 ^ 32 - 1) ≤ (counts.count source window).1 ∧
      (counts.count source window).2.Reads source.budgetKey window (n + 1) := by
  have hfirst := bumpAt_reads_self h.first
  have hsecond := bumpAt_reads_self (bumpAt_reads (counts.slotsAt source.budgetKey).1 h.second)
  refine ⟨le_min ?_ ?_, bumpAt_reads _ hfirst, hsecond⟩
  · exact (hfirst.resolve_left (Nat.succ_ne_zero n)).2
  · exact (hsecond.resolve_left (Nat.succ_ne_zero n)).2

end SourceCounts

/-! ### One call -/

namespace RateLimiter

variable {P : Primitives}

/-- Count a message for its source; its count and the limiter after it. -/
def shared (limiter : RateLimiter P) (env : Env P) (source : Source) : Nat × RateLimiter P :=
  let (n, sources) := limiter.sources.count source (limiter.window env.now)
  (n, { limiter with sources := sources })

/-- What the gate answers and leaves, for a known source, with the defense armed and a load
decision of its own: one constructor for each way through. -/
inductive Gates (limiter : RateLimiter P) (env : Env P) (source : Source) (message : Bytes) :
    HandshakeGate × LoadDecision × RateLimiter P × Env P → Prop where
  | badMac (hmac1 : ¬ limiter.Mac1Valid message) :
    Gates limiter env source message (.badMac, {}, limiter, env)
  | clear (hshare : (limiter.shared env source).1 ≤ limiter.sourceLimit)
    (hroom : limiter.count < limiter.limit) :
    Gates limiter env source message
      (.pass, { load := some .clear }, (limiter.shared env source).2.countUp, env.tick)
  | aggregateUnproven (demand : CookieDemand)
    (hshare : (limiter.shared env source).1 ≤ limiter.sourceLimit)
    (hspent : limiter.limit ≤ limiter.count)
    (hmac2 : ¬ limiter.Mac2Valid env.tick.now source message) :
    Gates limiter env source message
      (.cookieDemanded demand, { load := some .aggregate }, (limiter.shared env source).2.countUp,
        env.tick.tick)
  | aggregateProven {admitted : Bool} {limiter' : RateLimiter P} {env' : Env P}
    (hshare : (limiter.shared env source).1 ≤ limiter.sourceLimit)
    (hspent : limiter.limit ≤ limiter.count)
    (hmac2 : limiter.Mac2Valid env.tick.now source message)
    (hproven : (limiter.shared env source).2.countUp.chargeProven env.tick.tick source =
      (admitted, limiter', env')) :
    Gates limiter env source message
      (if admitted then .pass else .underLoad,
        { load := some .aggregate, proven := some admitted }, limiter', env')
  | shareUnproven (demand : CookieDemand)
    (hshare : limiter.sourceLimit < (limiter.shared env source).1)
    (hmac2 : ¬ limiter.Mac2Valid env.tick.now source message) :
    Gates limiter env source message
      (.cookieDemanded demand, { load := some .sourceShare }, (limiter.shared env source).2,
        env.tick.tick)
  | shareProven (hshare : limiter.sourceLimit < (limiter.shared env source).1)
    (hroom : limiter.count < limiter.limit)
    (hmac2 : limiter.Mac2Valid env.tick.now source message) :
    Gates limiter env source message
      (.pass, { load := some .sourceShare, proven := some true },
        (limiter.shared env source).2.countUp, env.tick.tick)
  | shareSpent {admitted : Bool} {limiter' : RateLimiter P} {env' : Env P}
    (hshare : limiter.sourceLimit < (limiter.shared env source).1)
    (hspent : limiter.limit ≤ limiter.count)
    (hmac2 : limiter.Mac2Valid env.tick.now source message)
    (hproven : (limiter.shared env source).2.countUp.chargeProven env.tick.tick source =
      (admitted, limiter', env')) :
    Gates limiter env source message
      (if admitted then .pass else .underLoad,
        { load := some .sourceShare, proven := some admitted }, limiter', env')

/-- The load a source finds: its own share first, then the aggregate. -/
theorem isUnderLoad_eq (limiter : RateLimiter P) (env : Env P) (source : Source) :
    limiter.isUnderLoad env (some source) =
      if limiter.sourceLimit < (limiter.shared env source).1 then
        (.sourceShare, (limiter.shared env source).2, env.tick)
      else if limiter.limit ≤ limiter.count then
        (.aggregate, (limiter.shared env source).2.countUp, env.tick)
      else (.clear, (limiter.shared env source).2.countUp, env.tick) := by
  unfold isUnderLoad shared chargeAggregate
  dsimp only
  split
  · rfl
  · split
    · rfl
    · rfl

/-- Every call goes one of the ways of `Gates`. -/
theorem gateHandshake_gates (limiter : RateLimiter P) (env : Env P) (source : Source)
    (message : Bytes) (senderIdx : UInt32) :
    Gates limiter env source message
      (limiter.gateHandshake env (some source) message senderIdx .armed {}) := by
  have hload := limiter.isUnderLoad_eq env source
  unfold gateHandshake decideLoad
  dsimp only
  split
  · next hmac1 => exact .badMac hmac1
  · rw [if_neg (by decide)]
    -- counting does not touch the cookie
    by_cases hshare : limiter.sourceLimit < (limiter.shared env source).1
    · rw [hload, if_pos hshare, if_neg (show Load.sourceShare ≠ .clear by decide)]
      split
      · next hmac2 => exact .shareUnproven _ hshare hmac2
      · next hmac2 =>
        unfold decideProven admitProven
        dsimp only
        rw [if_pos rfl]
        split
        · next hroom => exact .shareProven hshare hroom (not_not.mp hmac2)
        · next hspent =>
          exact .shareSpent hshare (Nat.le_of_not_lt hspent) (not_not.mp hmac2) rfl
    · have hwithin := Nat.le_of_not_lt hshare
      by_cases hspent : limiter.limit ≤ limiter.count
      · rw [hload, if_neg hshare, if_pos hspent, if_neg (show Load.aggregate ≠ .clear by decide)]
        split
        · next hmac2 => exact .aggregateUnproven _ hwithin hspent hmac2
        · next hmac2 => exact .aggregateProven hwithin hspent (not_not.mp hmac2) rfl
      · rw [hload, if_neg hshare, if_neg hspent, if_pos rfl]
        exact .clear hwithin (Nat.lt_of_not_le hspent)

end RateLimiter

/-! ### Runs -/

/-- A call on a limiter. -/
inductive LimiterCall where
  | gateHandshake (source : Source) (message : Bytes) (senderIdx : UInt32)
  | resetCount

/-- A limiter, the readings of the clock it will get, and how often its aggregate was reset. -/
structure Watch (P : Primitives) where
  limiter : RateLimiter P
  env : Env P
  resets : Nat := 0

variable {P : Primitives}

namespace Watch

variable (w : Watch P)

/-- Each handshake message is decided on its own. -/
def gated (source : Source) (message : Bytes) (senderIdx : UInt32) :
    HandshakeGate × LoadDecision × RateLimiter P × Env P :=
  w.limiter.gateHandshake w.env (some source) message senderIdx .armed {}

def step (w : Watch P) : LimiterCall → Watch P
  | .gateHandshake source message senderIdx =>
    let (_, _, limiter, env) := w.gated source message senderIdx
    { w with limiter, env }
  | .resetCount =>
    { limiter := w.limiter.resetCount w.env.now
      env := w.env.tick
      resets := if asSecs (w.env.now - w.limiter.lastReset) ≥ RESET_PERIOD then w.resets + 1
        else w.resets }

/-- The second, counted from the limiter's start, of the next reading but `i`. -/
def secondAt (i : Nat) : Nat := asSecs (w.env.clock i - w.limiter.startTime)

end Watch

def HandshakeGate.isPass : HandshakeGate → Bool
  | .pass => true
  | _ => false

/-- A call of a run, with the limiter it met. -/
abbrev Visit (P : Primitives) := Watch P × LimiterCall

namespace Visit

variable (v : Visit P)

/-- The budget key of a handshake message. -/
def key : Option (Nat × Nat) :=
  match v.2 with
  | .gateHandshake source _ _ => some source.budgetKey
  | .resetCount => none

/-- The load a handshake message with a valid mac1 found. -/
def load : Option Load :=
  match v.2 with
  | .gateHandshake source message senderIdx => (v.1.gated source message senderIdx).2.1.load
  | .resetCount => none

def passes : Bool :=
  match v.2 with
  | .gateHandshake source message senderIdx => (v.1.gated source message senderIdx).1.isPass
  | .resetCount => false

/-- The message holds its source's cookie. Its count is the first reading of the clock and
the cookie the second. -/
def proven : Bool :=
  match v.2 with
  | .gateHandshake source message _ => v.1.limiter.Mac2Valid (v.1.env.clock 1) source message
  | .resetCount => false

def hasRoom : Bool := v.1.limiter.count < v.1.limiter.limit

/-- The message is charged to its source's proven share: it is under load, holds the cookie,
and the aggregate has no room for it. -/
def spendsProof : Bool :=
  v.load ≠ none ∧ v.load ≠ some .clear ∧ v.proven = true ∧ v.hasRoom = false

/-- The message is charged to the aggregate. -/
def advances : Bool := v.key.isSome && (v.1.step v.2).limiter.count ≠ v.1.limiter.count

end Visit

/-! ### Clocks and tables along a run -/

namespace Watch

/-- Messages of a key in a second, as a table of the limiter has them. -/
structure Tally (table : RateLimiter P → SourceCounts) (key : Nat × Nat) (second : Nat)
    (w : Watch P) (n : Nat) : Prop where
  clock : Monotone fun i => w.env.clock i
  fresh : w.secondAt 0 < second → n = 0
  reads : w.secondAt 0 ≤ second → (table w.limiter).Reads key (UInt32.ofNat second) n

/-- The limiter some readings of the clock later. -/
structure Later (w : Watch P) (readings : Nat) (w' : Watch P) : Prop where
  keys : w.limiter.SameKeys w'.limiter
  clock : w'.env.clock = fun i => w.env.clock (i + readings)

variable {w w' : Watch P} {table : RateLimiter P → SourceCounts} {key : Nat × Nat}
  {second n readings : Nat}

theorem Later.startTime (h : w.Later readings w') : w'.limiter.startTime = w.limiter.startTime := by
  obtain ⟨_, _, _, _, _, heq⟩ := h.keys
  rw [heq]

theorem Later.secondAt (h : w.Later readings w') (i : Nat) :
    w'.secondAt i = w.secondAt (i + readings) := by
  unfold Watch.secondAt
  rw [h.startTime, h.clock]

theorem secondAt_mono (hclock : Monotone fun i => w.env.clock i) {i j : Nat} (hle : i ≤ j) :
    w.secondAt i ≤ w.secondAt j :=
  Nat.div_le_div_right (Nat.sub_le_sub_right (hclock hle) _)

/-- A table that was not written to. -/
theorem Tally.later (h : Tally table key second w n) (hlater : w.Later readings w')
    (htable : table w'.limiter = table w.limiter) : Tally table key second w' n where
  clock := by
    rw [hlater.clock]
    exact h.clock.comp (fun i j hij => Nat.add_le_add_right hij readings)
  fresh hlt := by
    have hle := secondAt_mono h.clock (Nat.zero_le (0 + readings))
    rw [hlater.secondAt] at hlt
    exact h.fresh (by omega)
  reads hle := by
    have hpast := secondAt_mono h.clock (Nat.zero_le (0 + readings))
    rw [hlater.secondAt] at hle
    rw [htable]
    exact h.reads (by omega)

/-- A table that counted a message at reading `i`. -/
theorem Tally.count (h : Tally table key second w n) (hlater : w.Later readings w') {i : Nat}
    (hi : i ≤ readings) {source : Source}
    (htable : table w'.limiter =
      ((table w.limiter).count source (UInt32.ofNat (w.secondAt i))).2) :
    Tally table key second w'
      (if source.budgetKey = key ∧ w.secondAt i = second then n + 1 else n) := by
  have hstart := secondAt_mono h.clock (Nat.zero_le i)
  have hend := secondAt_mono h.clock hi
  refine ⟨?_, ?_, ?_⟩
  · rw [hlater.clock]
    exact h.clock.comp (fun i j hij => Nat.add_le_add_right hij readings)
  · intro hlt
    rw [hlater.secondAt, Nat.zero_add] at hlt
    rw [if_neg (by omega)]
    exact h.fresh (by omega)
  · intro hle
    rw [hlater.secondAt, Nat.zero_add] at hle
    rw [htable]
    by_cases hnow : w.secondAt i = second
    · have hreads := h.reads (by omega)
      rw [hnow]
      by_cases hkey : source.budgetKey = key
      · subst hkey
        rw [if_pos ⟨rfl, rfl⟩]
        exact (SourceCounts.count_reads hreads).2
      · rw [if_neg (fun hcounted => hkey hcounted.1)]
        exact SourceCounts.count_reads_of hreads source
    · rw [if_neg (fun hcounted => hnow hcounted.2), h.fresh (by omega)]
      exact SourceCounts.reads_zero _ _ _

/-! ### What a call leaves -/

section

variable {source : Source} {limiter' : RateLimiter P} {env' : Env P}

/-- A call in the terms of `Gates`, and what the log of a run has of it. -/
theorem gated_cases (w : Watch P) (source : Source) (message : Bytes) (senderIdx : UInt32) :
    ∃ gate decision limiter' env',
      RateLimiter.Gates w.limiter w.env source message (gate, decision, limiter', env') ∧
      w.step (.gateHandshake source message senderIdx) =
        { w with limiter := limiter', env := env' } ∧
      Visit.load (w, .gateHandshake source message senderIdx) = decision.load ∧
      Visit.passes (w, .gateHandshake source message senderIdx) = gate.isPass :=
  ⟨_, _, _, _, w.limiter.gateHandshake_gates w.env source message senderIdx, rfl, rfl, rfl⟩

/-- A proven message is counted at the third reading. -/
theorem chargeProven_eq {limiter : RateLimiter P} {env : Env P} {admitted : Bool}
    (h : limiter.chargeProven env source = (admitted, limiter', env')) :
    admitted = decide ((limiter.proven.count source (limiter.window env.now)).1 ≤
        max limiter.sourceLimit SOURCE_FLOOR) ∧
      limiter' = { limiter with
        proven := (limiter.proven.count source (limiter.window env.now)).2 } ∧
      env' = env.tick := by
  cases h
  exact ⟨rfl, rfl, rfl⟩

end

/-- What a message with a valid mac1 leaves of the limiter. -/
structure Leaves (w : Watch P) (source : Source) (call : LimiterCall) (readings : Nat)
    (w' : Watch P) : Prop where
  later : w.Later readings w'
  resets : w'.resets = w.resets
  sources : w'.limiter.sources =
    (w.limiter.sources.count source (UInt32.ofNat (w.secondAt 0))).2
  proven : if Visit.spendsProof (w, call) then
      2 ≤ readings ∧ w'.limiter.proven =
        (w.limiter.proven.count source (UInt32.ofNat (w.secondAt 2))).2
    else w'.limiter.proven = w.limiter.proven
  count : w'.limiter.count =
    if Visit.load (w, call) = some .sourceShare ∧ Visit.proven (w, call) = false
      then w.limiter.count else (w.limiter.count + 1) % 2 ^ 64

section

variable {source : Source} {message : Bytes} {senderIdx : UInt32}

theorem step_badMac (h : Visit.load (w, .gateHandshake source message senderIdx) = none) :
    w.step (.gateHandshake source message senderIdx) = w := by
  obtain ⟨gate, decision, limiter', env', hgates, hstep, hload, -⟩ :=
    w.gated_cases source message senderIdx
  rw [hload] at h
  cases hgates with
  | badMac hmac1 => exact hstep
  | _ => cases h

theorem step_leaves (h : Visit.load (w, .gateHandshake source message senderIdx) ≠ none) :
    ∃ readings, w.Leaves source (.gateHandshake source message senderIdx) readings
      (w.step (.gateHandshake source message senderIdx)) := by
  obtain ⟨gate, decision, limiter', env', hgates, hstep, hload, -⟩ :=
    w.gated_cases source message senderIdx
  have hproof : Visit.proven (w, .gateHandshake source message senderIdx) =
      decide (w.limiter.Mac2Valid w.env.tick.now source message) := rfl
  have hroomy : Visit.hasRoom (w, .gateHandshake source message senderIdx) =
      decide (w.limiter.count < w.limiter.limit) := rfl
  rw [hstep]
  cases hgates with
  | badMac hmac1 => exact absurd hload h
  | clear hshare hroom =>
    refine ⟨1, ⟨⟨_, _, _, _, _, rfl⟩, rfl⟩, rfl, rfl, ?_, ?_⟩
    · rw [if_neg (by simp [Visit.spendsProof, hload])]
      rfl
    · rw [if_neg (by simp [hload])]
      rfl
  | aggregateUnproven demand hshare hspent hmac2 =>
    refine ⟨2, ⟨⟨_, _, _, _, _, rfl⟩, rfl⟩, rfl, rfl, ?_, ?_⟩
    · rw [if_neg (by simp [Visit.spendsProof, hproof, hmac2])]
      rfl
    · rw [if_neg (by simp [hload])]
      rfl
  | shareUnproven demand hshare hmac2 =>
    refine ⟨2, ⟨⟨_, _, _, _, _, rfl⟩, rfl⟩, rfl, rfl, ?_, ?_⟩
    · rw [if_neg (by simp [Visit.spendsProof, hproof, hmac2])]
      rfl
    · rw [if_pos (by simp [hload, hproof, hmac2])]
      rfl
  | shareProven hshare hroom hmac2 =>
    refine ⟨2, ⟨⟨_, _, _, _, _, rfl⟩, rfl⟩, rfl, rfl, ?_, ?_⟩
    · rw [if_neg (by simp [Visit.spendsProof, hroomy, hroom])]
      rfl
    · rw [if_neg (by simp [hproof, hmac2])]
      rfl
  | aggregateProven hshare hspent hmac2 hproven | shareSpent hshare hspent hmac2 hproven =>
    obtain ⟨-, rfl, rfl⟩ := chargeProven_eq hproven
    refine ⟨3, ⟨⟨_, _, _, _, _, rfl⟩, rfl⟩, rfl, rfl, ?_, ?_⟩
    · rw [if_pos (by simp [Visit.spendsProof, hload, hproof, hmac2, hroomy, hspent])]
      exact ⟨by decide, rfl⟩
    · rw [if_neg (by simp [hproof, hmac2])]
      rfl

/-- A message its share does not refuse is within it. -/
theorem within_share (hload : Visit.load (w, .gateHandshake source message senderIdx) ≠ none)
    (hshare : Visit.load (w, .gateHandshake source message senderIdx) ≠ some .sourceShare) :
    (w.limiter.sources.count source (UInt32.ofNat (w.secondAt 0))).1 ≤ w.limiter.sourceLimit := by
  obtain ⟨gate, decision, limiter', env', hgates, -, heq, -⟩ :=
    w.gated_cases source message senderIdx
  cases hgates with
  | badMac hmac1 => exact absurd heq hload
  | clear hwithin | aggregateUnproven _ hwithin | aggregateProven hwithin => exact hwithin
  | _ => exact absurd heq hshare

theorem hasRoom_of_clear
    (hload : Visit.load (w, .gateHandshake source message senderIdx) = some .clear) :
    w.limiter.count < w.limiter.limit := by
  obtain ⟨gate, decision, limiter', env', hgates, -, heq, -⟩ :=
    w.gated_cases source message senderIdx
  rw [heq] at hload
  cases hgates with
  | clear hshare hroom => exact hroom
  | _ => cases hload

/-- What passes under load is proven; with no room in the aggregate, it is within its proven
share. -/
theorem passes_underLoad
    (hpasses : Visit.passes (w, .gateHandshake source message senderIdx) = true)
    (hload : Visit.load (w, .gateHandshake source message senderIdx) ≠ some .clear) :
    Visit.load (w, .gateHandshake source message senderIdx) ≠ none ∧
      w.limiter.Mac2Valid (w.env.clock 1) source message ∧
      (w.limiter.limit ≤ w.limiter.count →
        (w.limiter.proven.count source (UInt32.ofNat (w.secondAt 2))).1 ≤
          max w.limiter.sourceLimit SOURCE_FLOOR) := by
  obtain ⟨gate, decision, limiter', env', hgates, -, heq, hpass⟩ :=
    w.gated_cases source message senderIdx
  rw [hpass] at hpasses
  rw [heq] at hload ⊢
  cases hgates with
  | clear hshare hroom => exact absurd rfl hload
  | shareProven hshare hroom hmac2 =>
    exact ⟨nofun, hmac2, fun hspent => absurd hroom (Nat.not_lt.mpr hspent)⟩
  | @aggregateProven admitted _ _ _ _ hmac2 hproven | @shareSpent admitted _ _ _ _ hmac2 hproven =>
    cases admitted with
    | false => cases hpasses
    | true => exact ⟨nofun, hmac2, fun _ => of_decide_eq_true (chargeProven_eq hproven).1.symm⟩
  | _ => cases hpasses

end

theorem resetCount_later (w : Watch P) : w.Later 1 (w.step .resetCount) :=
  ⟨w.limiter.resetCount_sameKeys _, rfl⟩

theorem resetCount_tables (w : Watch P) :
    (w.step .resetCount).limiter.sources = w.limiter.sources ∧
      (w.step .resetCount).limiter.proven = w.limiter.proven := by
  unfold step RateLimiter.resetCount
  dsimp only
  split
  · exact ⟨rfl, rfl⟩
  · exact ⟨rfl, rfl⟩

end Watch

/-! ### The share of a source -/

namespace Visit

variable (key : Nat × Nat) (second : Nat) (v : Visit P)

/-- The message counts for its source in a second. -/
def countsShare : Bool := v.load ≠ none ∧ v.key = some key ∧ v.1.secondAt 0 = second

/-- And its share does not refuse it. -/
def withinShare : Bool := v.countsShare key second ∧ v.load ≠ some .sourceShare

/-- The message is charged to its source's proven share in a second. -/
def countsProof : Bool := v.spendsProof ∧ v.key = some key ∧ v.1.secondAt 2 = second

/-- And passes. -/
def withinProof : Bool := v.countsProof key second ∧ v.passes

end Visit

namespace Watch

variable {w w' : Watch P} {key : Nat × Nat} {second n : Nat}

theorem Tally.step_sources (h : Tally RateLimiter.sources key second w n) (call : LimiterCall) :
    Tally RateLimiter.sources key second (w.step call)
      (if Visit.countsShare key second (w, call) then n + 1 else n) := by
  cases call with
  | resetCount =>
    exact h.later w.resetCount_later w.resetCount_tables.1
  | gateHandshake source message senderIdx =>
    by_cases hload : Visit.load (w, .gateHandshake source message senderIdx) = none
    · rw [if_neg (by simp [Visit.countsShare, hload]), step_badMac hload]
      exact h
    · obtain ⟨readings, hleaves⟩ := step_leaves hload
      have hcount := h.count hleaves.later (Nat.zero_le _) hleaves.sources
      simpa [Visit.countsShare, hload, Visit.key] using hcount

theorem Tally.step_proven (h : Tally RateLimiter.proven key second w n) (call : LimiterCall) :
    Tally RateLimiter.proven key second (w.step call)
      (if Visit.countsProof key second (w, call) then n + 1 else n) := by
  cases call with
  | resetCount =>
    exact h.later w.resetCount_later w.resetCount_tables.2
  | gateHandshake source message senderIdx =>
    by_cases hload : Visit.load (w, .gateHandshake source message senderIdx) = none
    · rw [if_neg (by simp [Visit.countsProof, Visit.spendsProof, hload]), step_badMac hload]
      exact h
    · obtain ⟨readings, hleaves⟩ := step_leaves hload
      have htable := hleaves.proven
      split at htable
      · next hspends =>
        have hcount := h.count hleaves.later htable.1 htable.2
        simpa [Visit.countsProof, hspends, Visit.key] using hcount
      · next hspends =>
        rw [if_neg (by simp [Visit.countsProof, hspends])]
        exact h.later hleaves.later htable

theorem step_sameKeys (w : Watch P) (call : LimiterCall) :
    w.limiter.SameKeys (w.step call).limiter := by
  cases call with
  | gateHandshake source message senderIdx =>
    exact w.limiter.gateHandshake_sameKeys w.env (some source) message senderIdx .armed {}
  | resetCount => exact w.limiter.resetCount_sameKeys _

end Watch

/-! ### The three budgets -/

namespace RateLimiter

theorem SameKeys.limits {limiter limiter' : RateLimiter P} (h : limiter.SameKeys limiter') :
    limiter'.limit = limiter.limit ∧ limiter'.sourceLimit = limiter.sourceLimit := by
  obtain ⟨_, _, _, _, _, rfl⟩ := h
  exact ⟨rfl, rfl⟩

variable {limiter : RateLimiter P}

/-- A source is within its share at most `sourceLimit` times in a second. -/
theorem share_quota (hlimit : limiter.sourceLimit < 2 ^ 32 - 1) (key : Nat × Nat)
    (second reliable : Nat) :
    Quota Watch.step (Visit.countsShare (P := P) key second) (Visit.withinShare key second)
      (fun w n => w.Tally RateLimiter.sources key second n ∧ limiter.SameKeys w.limiter)
      reliable limiter.sourceLimit where
  counts v hwithin := by
    simp only [Visit.withinShare, decide_eq_true_eq] at hwithin
    exact hwithin.1
  step w call n htally := ⟨htally.1.step_sources call, htally.2.trans (w.step_sameKeys call)⟩
  within w call n htally _ hwithin := by
    obtain ⟨htally, hkeys⟩ := htally
    simp only [Visit.withinShare, Visit.countsShare, decide_eq_true_eq] at hwithin
    obtain ⟨⟨hload, hkey, rfl⟩, hshare⟩ := hwithin
    cases call with
    | resetCount => cases hkey
    | gateHandshake source message senderIdx =>
      cases hkey
      have hcount := (SourceCounts.count_reads (htally.reads (Nat.le_refl _))).1
      have hle := Watch.within_share hload hshare
      rw [hkeys.limits.2] at hle
      omega

/-- A proven source passes without room at most so often in a second. -/
theorem proven_quota (hlimit : max limiter.sourceLimit SOURCE_FLOOR < 2 ^ 32 - 1)
    (key : Nat × Nat) (second reliable : Nat) :
    Quota Watch.step (Visit.countsProof (P := P) key second) (Visit.withinProof key second)
      (fun w n => w.Tally RateLimiter.proven key second n ∧ limiter.SameKeys w.limiter)
      reliable (max limiter.sourceLimit SOURCE_FLOOR) where
  counts v hpasses := by
    simp only [Visit.withinProof, decide_eq_true_eq] at hpasses
    exact hpasses.1
  step w call n htally := ⟨htally.1.step_proven call, htally.2.trans (w.step_sameKeys call)⟩
  within w call n htally _ hpasses := by
    obtain ⟨htally, hkeys⟩ := htally
    simp only [Visit.withinProof, Visit.countsProof, Visit.spendsProof,
      decide_eq_true_eq] at hpasses
    obtain ⟨⟨⟨hload, hclear, hproven, hroom⟩, hkey, hsecond⟩, hpasses⟩ := hpasses
    cases call with
    | resetCount => cases hkey
    | gateHandshake source message senderIdx =>
      cases hkey
      -- the third reading is in the second, so the first is no later
      have hstart := Watch.secondAt_mono htally.clock (Nat.zero_le 2)
      have hcount := (SourceCounts.count_reads (htally.reads (by omega))).1
      obtain ⟨-, -, hle⟩ := Watch.passes_underLoad hpasses hclear
      have hspent : w.limiter.limit ≤ w.limiter.count := by
        simpa [Visit.hasRoom] using hroom
      have hle := hle hspent
      rw [hkeys.limits.2, hsecond] at hle
      omega

end RateLimiter

/-- The aggregate between two resets, as far as its counter has it. -/
structure Watch.Charged (epoch : Nat) (w : Watch P) (n : Nat) : Prop where
  fresh : w.resets < epoch → n = 0
  count : w.resets = epoch → w.limiter.count = n % 2 ^ 64

namespace Visit

variable (epoch : Nat) (v : Visit P)

/-- The message is charged to the aggregate between two resets. -/
def charged : Bool :=
  v.1.resets = epoch ∧ v.load ≠ none ∧ ¬ (v.load = some .sourceShare ∧ v.proven = false)

/-- The message passes while the aggregate has room: as clear, or as proven when only its
share refused it. -/
def passesOnAggregate : Bool :=
  v.1.resets = epoch ∧
    (v.load = some .clear ∨ v.load = some .sourceShare ∧ v.passes = true ∧ v.hasRoom = true)

end Visit

theorem Watch.Charged.step {epoch n : Nat} {w : Watch P} (h : w.Charged epoch n)
    (call : LimiterCall) :
    (w.step call).Charged epoch (if Visit.charged epoch (w, call) then n + 1 else n) := by
  cases call with
  | resetCount =>
    rw [if_neg (by simp [Visit.charged, Visit.load])]
    unfold Watch.step RateLimiter.resetCount
    dsimp only
    split
    · refine ⟨fun hlt => h.fresh (Nat.lt_of_succ_lt hlt), fun heq => ?_⟩
      rw [h.fresh (Nat.lt_of_succ_le (Nat.le_of_eq heq))]
      exact (Nat.zero_mod _).symm
    · exact ⟨h.fresh, h.count⟩
  | gateHandshake source message senderIdx =>
    by_cases hload : Visit.load (w, .gateHandshake source message senderIdx) = none
    · rw [if_neg (by simp [Visit.charged, hload]), Watch.step_badMac hload]
      exact h
    · obtain ⟨readings, hleaves⟩ := Watch.step_leaves hload
      refine ⟨fun hlt => ?_, fun heq => ?_⟩
      · rw [hleaves.resets] at hlt
        rw [if_neg (by simp [Visit.charged, Nat.ne_of_lt hlt])]
        exact h.fresh hlt
      · rw [hleaves.count, h.count heq]
        by_cases hrefused : Visit.load (w, .gateHandshake source message senderIdx) =
            some .sourceShare ∧ Visit.proven (w, .gateHandshake source message senderIdx) = false
        · rw [if_pos hrefused, if_neg (by simp [Visit.charged, hrefused])]
        · have hcharged : Visit.charged epoch
              (w, .gateHandshake source message senderIdx) = true :=
            decide_eq_true ⟨heq, hload, hrefused⟩
          rw [if_neg hrefused, if_pos hcharged]
          omega

namespace RateLimiter

variable {limiter : RateLimiter P}

/-- The aggregate has room for `limit` messages between two resets, if its counter does not
wrap. -/
theorem aggregate_quota (epoch : Nat) :
    Quota Watch.step (Visit.charged (P := P) epoch) (Visit.passesOnAggregate epoch)
      (fun w n => w.Charged epoch n ∧ limiter.SameKeys w.limiter) (2 ^ 64) limiter.limit where
  counts v hpasses := by
    obtain ⟨w, call⟩ := v
    simp only [Visit.passesOnAggregate, decide_eq_true_eq] at hpasses
    obtain ⟨hepoch, hpasses⟩ := hpasses
    simp only [Visit.charged, decide_eq_true_eq]
    rcases hpasses with hclear | ⟨hshare, hpasses, hroom⟩
    · simp [hepoch, hclear]
    · cases call with
      | resetCount => cases hshare
      | gateHandshake source message senderIdx =>
        obtain ⟨hload, hproven, -⟩ := Watch.passes_underLoad hpasses (by simp [hshare])
        refine ⟨hepoch, hload, fun hrefused => ?_⟩
        have hheld : Visit.proven (w, .gateHandshake source message senderIdx) = true :=
          decide_eq_true hproven
        rw [hheld] at hrefused
        cases hrefused.2
  step w call n htally := ⟨htally.1.step call, htally.2.trans (w.step_sameKeys call)⟩
  within w call n htally hreliable hpasses := by
    obtain ⟨htally, hkeys⟩ := htally
    simp only [Visit.passesOnAggregate, decide_eq_true_eq] at hpasses
    obtain ⟨hepoch, hpasses⟩ := hpasses
    have hroom : w.limiter.count < w.limiter.limit := by
      rcases hpasses with hclear | ⟨-, -, hroom⟩
      · cases call with
        | resetCount => cases hclear
        | gateHandshake source message senderIdx => exact Watch.hasRoom_of_clear hclear
      · simpa [Visit.hasRoom] using hroom
    rw [htally.count hepoch, hkeys.limits.1, Nat.mod_eq_of_lt hreliable] at hroom
    exact hroom

/-! ### The bounds -/

/-- The calls of a run, each with the limiter it met. -/
def log (limiter : RateLimiter P) (env : Env P) (calls : List LimiterCall) : List (Visit P) :=
  visits Watch.step ⟨limiter, env, 0⟩ calls

end RateLimiter

section

variable (log : List (Visit P)) (key : Nat × Nat) (second epoch : Nat)

/-- Messages of a key that find the limiter clear in a second. -/
def foundClear : Nat :=
  log.countP fun v => v.key = some key ∧ v.1.secondAt 0 = second ∧ v.load = some .clear

/-- Messages that pass between two resets, as clear or as proven after only a share refusal. -/
def passedOnAggregate : Nat := log.countP (Visit.passesOnAggregate epoch)

/-- Proven messages of a key that pass in a second with the aggregate exhausted. -/
def passedOnProof : Nat :=
  log.countP fun v => v.key = some key ∧ v.1.secondAt 2 = second ∧ v.passes = true ∧
    v.load ≠ some .clear ∧ v.hasRoom = false

/-- Messages of a key without a valid mac2 that advance the aggregate in a second. -/
def advancedUnproven : Nat :=
  log.countP fun v => v.key = some key ∧ v.1.secondAt 0 = second ∧ v.proven = false ∧
    v.advances = true

/-- Handshake messages between two resets. -/
def messages : Nat := log.countP fun v => v.1.resets = epoch ∧ v.key ≠ none

end

namespace Visit

/-- A refused share without a valid mac2 costs the aggregate nothing. -/
theorem advances_unproven {v : Visit P} (hload : v.load = some .sourceShare)
    (hproven : v.proven = false) : v.advances = false := by
  obtain ⟨w, call⟩ := v
  cases call with
  | resetCount => cases hload
  | gateHandshake source message senderIdx =>
    obtain ⟨readings, hleaves⟩ := Watch.step_leaves (w := w) (by rw [hload]; nofun)
    have hcount := hleaves.count
    rw [if_pos ⟨hload, hproven⟩] at hcount
    simp [advances, hcount]

theorem load_of_advances {v : Visit P} (h : v.advances = true) : v.load ≠ none := by
  obtain ⟨w, call⟩ := v
  intro hload
  cases call with
  | resetCount => simp [advances, key] at h
  | gateHandshake source message senderIdx =>
    simp [advances, Watch.step_badMac hload] at h

end Visit

namespace RateLimiter

variable {limiter : RateLimiter P} {env : Env P}

theorem tally_start (table : RateLimiter P → SourceCounts) (hclock : Monotone fun i => env.clock i)
    (key : Nat × Nat) (second : Nat) : Watch.Tally table key second ⟨limiter, env, 0⟩ 0 :=
  ⟨hclock, fun _ => rfl, fun _ => SourceCounts.reads_zero _ _ _⟩

theorem countP_withinShare_le (hlimit : limiter.sourceLimit < 2 ^ 32 - 1)
    (hclock : Monotone fun i => env.clock i) (calls : List LimiterCall) (key : Nat × Nat)
    (second : Nat) :
    (limiter.log env calls).countP (Visit.withinShare key second) ≤ limiter.sourceLimit :=
  (share_quota hlimit key second _).countP_le calls
    ⟨tally_start _ hclock key second, .refl limiter⟩ (Nat.le_refl _)

theorem countP_withinProof_le (hlimit : max limiter.sourceLimit SOURCE_FLOOR < 2 ^ 32 - 1)
    (hclock : Monotone fun i => env.clock i) (calls : List LimiterCall) (key : Nat × Nat)
    (second : Nat) :
    (limiter.log env calls).countP (Visit.withinProof key second) ≤
      max limiter.sourceLimit SOURCE_FLOOR :=
  (proven_quota hlimit key second _).countP_le calls
    ⟨tally_start _ hclock key second, .refl limiter⟩ (Nat.le_refl _)

end RateLimiter

/-- **Rate limits.** In one second a source is found clear at most `sourceLimit` times, passes
with a cookie at most `max sourceLimit SOURCE_FLOOR` times once the aggregate is exhausted, and
advances the aggregate without a cookie at most `sourceLimit` times, if the limit is one that a
32-bit count can exceed. Between two resets at most `limit` messages pass as clear or on a
cookie after only a share refusal, if the 64-bit counter does not wrap. -/
theorem rate_limits (publicKey : P.Value) (limit : Nat) (seed : RateLimiterSeed P) (env : Env P)
    (hclock : Monotone fun i => env.clock i) (calls : List LimiterCall) :
    (limit < 5 * (2 ^ 32 - 1) → ∀ key second,
      foundClear ((RateLimiter.new publicKey limit seed).log env calls) key second ≤
          (RateLimiter.new publicKey limit seed).sourceLimit ∧
        passedOnProof ((RateLimiter.new publicKey limit seed).log env calls) key second ≤
          max (RateLimiter.new publicKey limit seed).sourceLimit SOURCE_FLOOR ∧
        advancedUnproven ((RateLimiter.new publicKey limit seed).log env calls) key second ≤
          (RateLimiter.new publicKey limit seed).sourceLimit) ∧
      (∀ epoch, messages ((RateLimiter.new publicKey limit seed).log env calls) epoch ≤ 2 ^ 64 →
        passedOnAggregate ((RateLimiter.new publicKey limit seed).log env calls) epoch ≤ limit) ∧
      ∀ v ∈ (RateLimiter.new publicKey limit seed).log env calls,
        v.load = some .sourceShare → v.proven = false → v.advances = false := by
  refine ⟨fun hlimit key second => ?_, fun epoch hmessages => ?_,
    fun v _ => Visit.advances_unproven⟩
  · have hshare : (RateLimiter.new publicKey limit seed).sourceLimit < 2 ^ 32 - 1 := by
      simp only [RateLimiter.new, SOURCE_SHARE, SOURCE_FLOOR]
      omega
    have hproof : max (RateLimiter.new publicKey limit seed).sourceLimit SOURCE_FLOOR <
        2 ^ 32 - 1 := by
      simp only [SOURCE_FLOOR]
      omega
    refine ⟨?_, ?_, ?_⟩
    · refine Nat.le_trans (List.countP_mono_left fun v _ hclear => ?_)
        (RateLimiter.countP_withinShare_le hshare hclock calls key second)
      simp only [decide_eq_true_eq] at hclear
      obtain ⟨hkey, hsecond, hload⟩ := hclear
      simp [Visit.withinShare, Visit.countsShare, hkey, hsecond, hload]
    · refine Nat.le_trans (List.countP_mono_left fun v _ hpassed => ?_)
        (RateLimiter.countP_withinProof_le hproof hclock calls key second)
      simp only [decide_eq_true_eq] at hpassed
      obtain ⟨hkey, hsecond, hpasses, hload, hroom⟩ := hpassed
      obtain ⟨w, call⟩ := v
      cases call with
      | resetCount => cases hkey
      | gateHandshake source message senderIdx =>
        obtain ⟨hdecided, hproven, -⟩ := Watch.passes_underLoad hpasses hload
        have hheld : Visit.proven (w, .gateHandshake source message senderIdx) = true :=
          decide_eq_true hproven
        simp [Visit.withinProof, Visit.countsProof, Visit.spendsProof, hkey, hsecond, hpasses,
          hload, hroom, hdecided, hheld]
    · refine Nat.le_trans (List.countP_mono_left fun v _ hadvanced => ?_)
        (RateLimiter.countP_withinShare_le hshare hclock calls key second)
      simp only [decide_eq_true_eq] at hadvanced
      obtain ⟨hkey, hsecond, hproven, hadvances⟩ := hadvanced
      have hload := Visit.load_of_advances hadvances
      have hwithin : v.load ≠ some .sourceShare := by
        intro hover
        rw [Visit.advances_unproven hover hproven] at hadvances
        cases hadvances
      simp [Visit.withinShare, Visit.countsShare, hkey, hsecond, hload, hwithin]
  · refine (RateLimiter.aggregate_quota epoch).countP_le calls ⟨⟨fun _ => rfl, ?_⟩, .refl _⟩
      (Nat.le_trans (List.countP_mono_left fun v _ hcharged => ?_) hmessages)
    · intro _
      rfl
    · obtain ⟨w, call⟩ := v
      simp only [Visit.charged, decide_eq_true_eq] at hcharged ⊢
      obtain ⟨hepoch, hload, -⟩ := hcharged
      refine ⟨hepoch, ?_⟩
      cases call with
      | resetCount => exact absurd rfl hload
      | gateHandshake source message senderIdx => nofun

/-- A message of a source with the mac1 of a limiter for the key zero. -/
def macCall (source : Source) (mac2 : UInt8) : LimiterCall :=
  .gateHandshake source (byteTag 34 ++ byteTag mac2) 0

/-- A limiter of ten messages, that hashes a source to its address. -/
def smallSeed : RateLimiterSeed bytePrimitives :=
  { byteSeed.limiter with sources := fun key => UInt64.ofNat key.2 }

@[inherit_doc smallSeed]
def smallLimiter : RateLimiter bytePrimitives := .new (P := bytePrimitives) (0 : UInt8) 10 smallSeed

/-- A source with a cookie, then one without. -/
def smallCalls : List LimiterCall :=
  List.replicate 17 (macCall (.address (.v4 1)) 0) ++
    List.replicate 7 (macCall (.address (.v4 2)) 7)

/-- A run in which every bound is reached. -/
theorem rate_limits_reached :
    (foundClear (smallLimiter.log (byteEnv 0 0) smallCalls) (4, 1) 0 = 5 ∧
        passedOnProof (smallLimiter.log (byteEnv 0 0) smallCalls) (4, 1) 0 = 5 ∧
        advancedUnproven (smallLimiter.log (byteEnv 0 0) smallCalls) (4, 2) 0 = 5 ∧
        passedOnAggregate (smallLimiter.log (byteEnv 0 0) smallCalls) 0 = 10 ∧
        messages (smallLimiter.log (byteEnv 0 0) smallCalls) 0 = 24) ∧
      (∀ key second, foundClear (smallLimiter.log (byteEnv 0 0) smallCalls) key second ≤ 5 ∧
        passedOnProof (smallLimiter.log (byteEnv 0 0) smallCalls) key second ≤ 5 ∧
        advancedUnproven (smallLimiter.log (byteEnv 0 0) smallCalls) key second ≤ 5) ∧
      passedOnAggregate (smallLimiter.log (byteEnv 0 0) smallCalls) 0 ≤ 10 := by
  obtain ⟨hsecond, hepoch, -⟩ := rate_limits (P := bytePrimitives) (0 : UInt8) 10 smallSeed
    (byteEnv 0 0) monotone_const smallCalls
  exact ⟨by decide +kernel, hsecond (by decide), hepoch 0 (by decide +kernel)⟩

/-! ### Where the counters end -/

/-- A limiter whose share no 32-bit count exceeds. -/
def wideLimiter : RateLimiter bytePrimitives :=
  .new (P := bytePrimitives) (0 : UInt8) (5 * (2 ^ 32 - 1)) byteSeed.limiter

def wideCall : LimiterCall := macCall (.address (.v4 1)) 7

/-- The limiter after `n` of these messages. -/
structure Worn (n : Nat) (w : Watch bytePrimitives) : Prop where
  keys : wideLimiter.SameKeys w.limiter
  count : w.limiter.count = n % 2 ^ 64
  resets : w.resets = 0
  clock : ∀ i, w.env.clock i = 0

/-- One of these messages, found clear in the first second. -/
structure Worn.Clear (v : Visit bytePrimitives) : Prop where
  key : v.key = some (Source.address (.v4 1)).budgetKey
  second : v.1.secondAt 0 = 0
  resets : v.1.resets = 0
  load : v.load = some .clear

theorem SourceCounts.count_le (counts : SourceCounts) (source : Source) (window : UInt32) :
    (counts.count source window).1 ≤ 2 ^ 32 - 1 :=
  Nat.le_trans (Nat.min_le_left _ _) (Nat.le_sub_one_of_lt (UInt32.toNat_lt _))

namespace Worn

variable {n : Nat} {w : Watch bytePrimitives}

theorem load (h : Worn n w) : Visit.load (w, wideCall) =
    if n % 2 ^ 64 < 5 * (2 ^ 32 - 1) then some .clear else some .aggregate := by
  obtain ⟨hlimit, hshare⟩ := h.keys.limits
  have hwithin : ¬ w.limiter.sourceLimit < (w.limiter.shared w.env (.address (.v4 1))).1 := by
    rw [hshare]
    exact Nat.not_lt.mpr (w.limiter.sources.count_le _ _)
  have hmac1 : w.limiter.Mac1Valid (byteTag 34 ++ byteTag 7) := by
    unfold RateLimiter.Mac1Valid
    rw [h.keys.mac1Key]
    decide
  obtain ⟨gate, decision, limiter', env', hgates, -, hload, -⟩ :=
    w.gated_cases (.address (.v4 1)) (byteTag 34 ++ byteTag 7) 0
  rw [← h.count, wideCall, macCall, hload]
  cases hgates with
  | badMac hbad => exact absurd hmac1 hbad
  | clear hshare hroom => rw [if_pos (by rwa [hlimit] at hroom)]
  | aggregateUnproven _ _ hspent | aggregateProven _ hspent =>
    rw [if_neg (by rw [hlimit] at hspent; exact Nat.not_lt.mpr hspent)]
  | shareUnproven _ hover | shareProven hover | shareSpent hover => exact absurd hover hwithin

theorem step (h : Worn n w) : Worn (n + 1) (w.step wideCall) := by
  have hload := h.load
  have hdecided : Visit.load (w, wideCall) ≠ none := by
    rw [hload]
    split <;> nofun
  have hshare : Visit.load (w, wideCall) ≠ some .sourceShare := by
    rw [hload]
    split <;> nofun
  obtain ⟨readings, hleaves⟩ := Watch.step_leaves hdecided
  refine ⟨h.keys.trans (w.step_sameKeys _), ?_, hleaves.resets.trans h.resets, fun i => ?_⟩
  · have hcount := hleaves.count
    rw [if_neg (fun hrefused => hshare hrefused.1), h.count] at hcount
    exact hcount.trans (by omega)
  · have hclock := congrFun hleaves.later.clock i
    exact hclock.trans (h.clock _)

theorem foldl (h : Worn n w) (k : Nat) :
    Worn (n + k) ((List.replicate k wideCall).foldl Watch.step w) := by
  induction k generalizing n w with
  | zero => exact h
  | succ k ih =>
    rw [List.replicate_succ, List.foldl_cons, ← Nat.add_assoc, Nat.add_right_comm]
    exact ih h.step

/-- While the counter is below the limit, every message is clear. -/
theorem visits_clear (h : Worn n w) {k : Nat} (hroom : n % 2 ^ 64 + k ≤ 5 * (2 ^ 32 - 1)) :
    ∀ v ∈ visits Watch.step w (List.replicate k wideCall),
      Worn.Clear v := by
  induction k generalizing n w with
  | zero => exact List.forall_mem_nil _
  | succ k ih =>
    refine List.forall_mem_cons.mpr ⟨⟨rfl, ?_, h.resets, ?_⟩, ih h.step (by omega)⟩
    · unfold Watch.secondAt
      rw [h.clock, Nat.zero_sub]
      rfl
    · rw [h.load, if_pos (by omega)]

theorem countP_clear (h : Worn n w) {k : Nat} (hroom : n % 2 ^ 64 + k ≤ 5 * (2 ^ 32 - 1))
    {p : Visit bytePrimitives → Bool} (hp : ∀ v, Worn.Clear v → p v = true) :
    (visits Watch.step w (List.replicate k wideCall)).countP p = k := by
  rw [List.countP_eq_length.mpr fun v hv => hp v (h.visits_clear hroom v hv),
    visits_length, List.length_replicate]

/-- After `k` messages from a full turn of the counter, as many are clear again. -/
theorem le_passedOnAggregate (h : Worn 0 w) {k : Nat} (hroom : k ≤ 5 * (2 ^ 32 - 1)) :
    5 * (2 ^ 32 - 1) + k ≤ passedOnAggregate
      (visits Watch.step w (List.replicate (2 ^ 64 + k) wideCall)) 0 := by
  have hadmitted : ∀ v : Visit bytePrimitives, Worn.Clear v → v.passesOnAggregate 0 = true := by
    intro v hv
    simp [Visit.passesOnAggregate, hv.resets, hv.load]
  have hsplit : 2 ^ 64 + k = 5 * (2 ^ 32 - 1) + (2 ^ 64 - 5 * (2 ^ 32 - 1)) + k := by omega
  rw [hsplit, ← List.replicate_append_replicate, ← List.replicate_append_replicate,
    visits_append, visits_append, passedOnAggregate, List.countP_append, List.countP_append]
  have hfirst := h.countP_clear (k := 5 * (2 ^ 32 - 1)) (by omega) hadmitted
  have hturn := (h.foldl (5 * (2 ^ 32 - 1))).foldl (2 ^ 64 - 5 * (2 ^ 32 - 1))
  rw [Nat.zero_add, Nat.add_sub_of_le (by omega), ← List.foldl_append] at hturn
  rw [hfirst, hturn.countP_clear (by omega) hadmitted]
  omega

end Worn

/-- A share of `2 ^ 32 - 1` or more is never refused, and an aggregate that counts `2 ^ 64`
messages without a reset starts over. -/
theorem rate_limits_counters :
    wideLimiter.sourceLimit <
        foundClear (wideLimiter.log (byteEnv 0 0) (List.replicate (2 ^ 32) wideCall))
          (Source.address (.v4 1)).budgetKey 0 ∧
      wideLimiter.limit <
        passedOnAggregate
          (wideLimiter.log (byteEnv 0 0) (List.replicate (2 ^ 64 + 1) wideCall)) 0 := by
  have hstart : Worn 0 ⟨wideLimiter, byteEnv 0 0, 0⟩ := ⟨.refl _, rfl, rfl, fun _ => rfl⟩
  constructor
  · have hclear := hstart.countP_clear (k := 2 ^ 32) (by omega)
      (p := fun v => v.key = some (Source.address (.v4 1)).budgetKey ∧
        v.1.secondAt 0 = 0 ∧ v.load = some .clear) fun v hv => by
          simp [hv.key, hv.second, hv.load]
    have hlimit : wideLimiter.sourceLimit = 2 ^ 32 - 1 := rfl
    exact Nat.lt_of_lt_of_eq (by omega) hclear.symm
  · have hpassed := hstart.le_passedOnAggregate (k := 1) (by omega)
    have hlimit : wideLimiter.limit = 5 * (2 ^ 32 - 1) := rfl
    rw [hlimit]
    exact hpassed

end BoringTun

import BoringTun.Lib.Tickets
import BoringTun.RateLimits

/-!
Counts per source under concurrent callers (`SourceCounts::count` and `SourceCounts::bump` in
`noise/rate_limiter.rs`).

A table of counts is shared, and each of its slots is an atomic word that `fetch_update` moves.
A call bumps the slot of its source in one row and then in the next, so other calls come in
between.

* `run_count`: a call that nobody interrupts is the sequential `count`;
* `foldl_bump`: what any bumps do to a slot;
* `numbered`: in one window a slot numbers its bumps;
* `shared_counts`: the windows, the counts, and what the calls return;
* `shared_counts_saturate`: the returned counts once a slot is full.
-/

namespace BoringTun

open Tickets

def SOURCE_ROWS : Nat := 2

/-- One `count` call. -/
structure CountCall where
  source : Source
  window : UInt32

namespace SourceSlot

variable {slot : SourceSlot} {window base : UInt32}

/-- The slot is already in a later window, by the comparison `bump` makes. -/
def Later (slot : SourceSlot) (window : UInt32) : Prop :=
  0 < (slot.window - window).toNat ∧ (slot.window - window).toNat < 2 ^ 31

theorem bump_of_current (h : slot.Current window) :
    (slot.bump window).window = slot.window ∧
      (slot.bump window).count.toNat = min (slot.count.toNat + 1) (2 ^ 32 - 1) := by
  have hbump : slot.bump window =
      { slot with count := UInt32.ofNat (min (slot.count.toNat + 1) (2 ^ 32 - 1)) } := if_pos h
  rw [hbump]
  refine ⟨rfl, ?_⟩
  rw [UInt32.toNat_ofNat', Nat.mod_eq_of_lt (by omega)]

theorem bump_of_not_current (h : ¬ slot.Current window) : slot.bump window = ⟨window, 1⟩ :=
  if_neg h

/-! ### Windows within half the range -/

/-- How far a window is from `base` on. -/
def offset (base window : UInt32) : Nat := (window - base).toNat

/-- Within half the range the order of the offsets is the one `bump` decides by. -/
theorem current_iff (hslot : offset base slot.window < 2 ^ 31)
    (hwindow : offset base window < 2 ^ 31) :
    slot.Current window ↔ offset base window ≤ offset base slot.window := by
  have := slot.window.toNat_lt
  have := window.toNat_lt
  have := base.toNat_lt
  rw [Current, ← UInt32.toNat_inj]
  simp only [offset, UInt32.toNat_sub] at *
  omega

/-- What bumps do to a slot, whichever windows within half the range they carry: its window
goes forward, and in one window they are all counted. -/
theorem foldl_bump {windows : List UInt32} (hslot : offset base slot.window < 2 ^ 31)
    (hwindows : ∀ window ∈ windows, offset base window < 2 ^ 31) :
    offset base slot.window ≤ offset base (windows.foldl bump slot).window ∧
      offset base (windows.foldl bump slot).window < 2 ^ 31 ∧
      ((windows.foldl bump slot).window = slot.window → (windows.foldl bump slot).count.toNat =
        min (slot.count.toNat + windows.length) (2 ^ 32 - 1)) := by
  induction windows generalizing slot with
  | nil =>
    refine ⟨Nat.le_refl _, hslot, fun _ => ?_⟩
    have := slot.count.toNat_lt
    simp only [List.foldl_nil, List.length_nil]
    omega
  | cons window windows ih =>
    have hwindow := hwindows window List.mem_cons_self
    have hrest : ∀ later ∈ windows, offset base later < 2 ^ 31 := fun later hmem =>
      hwindows later (List.mem_cons_of_mem _ hmem)
    rw [List.foldl_cons, List.length_cons]
    by_cases hcurrent : slot.Current window
    · obtain ⟨hsame, hcount⟩ := bump_of_current hcurrent
      obtain ⟨hle, hlt, hadd⟩ := ih (by rw [hsame]; exact hslot) hrest
      rw [hsame] at hle hadd
      refine ⟨hle, hlt, fun heq => ?_⟩
      rw [hadd heq, hcount]
      omega
    · rw [bump_of_not_current hcurrent]
      have hmoved := @ih ⟨window, 1⟩ hwindow hrest
      dsimp only at hmoved
      obtain ⟨hle, hlt, -⟩ := hmoved
      rw [current_iff hslot hwindow] at hcurrent
      -- the slot has left its window and does not come back
      refine ⟨by omega, hlt, fun heq => ?_⟩
      rw [heq] at hle
      omega

/-! ### One window -/

/-- What the slot has counted in `window`. -/
def numberIn (window : UInt32) (slot : SourceSlot) : Nat :=
  if slot.window = window then slot.count.toNat else 0

theorem bump_numberIn (h : ¬ slot.Later window) :
    (slot.bump window).window = window ∧
      (slot.bump window).count.toNat = min (numberIn window slot + 1) (2 ^ 32 - 1) := by
  unfold numberIn
  by_cases heq : slot.window = window
  · obtain ⟨hwindow, hcount⟩ := bump_of_current (.inl heq : slot.Current window)
    rw [if_pos heq]
    exact ⟨hwindow.trans heq, hcount⟩
  · rw [if_neg heq, bump_of_not_current (not_or.mpr ⟨heq, h⟩)]
    exact ⟨rfl, rfl⟩

end SourceSlot

namespace SourceCounts

variable {ι : Type} (counts : SourceCounts) (calls : ι → CountCall)

/-- `count` as visits of the slots of its source. -/
def program : Program ι Nat SourceSlot Nat where
  sites i := [(counts.slotsOf (calls i).source).1, (counts.slotsOf (calls i).source).2]
  update i slot := slot.bump (calls i).window
  result i slot := (slot.bump (calls i).window).count.toNat

/-- The least of the results, which `count` returns. -/
def least (results : List Nat) : Nat := results.min?.getD 0

/-- The call has returned `n`. -/
def Counted (s : Shared ι Nat SourceSlot Nat) (i : ι) (n : Nat) : Prop :=
  ∃ results, s.calls i = .returned results ∧ least results = n

variable {counts calls}

theorem numbered {window : UInt32} (hcalls : ∀ i, (calls i).window = window) :
    Numbered (counts.program calls) (fun slot => ¬ slot.Later window)
      (SourceSlot.numberIn window) (2 ^ 32 - 1) where
  update i slot hslot := by
    obtain ⟨hwindow, hcount⟩ := SourceSlot.bump_numberIn hslot
    dsimp only [program]
    rw [hcalls i, SourceSlot.numberIn, if_pos hwindow, hcount]
  result i slot hslot := by
    dsimp only [program]
    rw [hcalls i, (SourceSlot.bump_numberIn hslot).2]
  keeps i slot hslot := by
    dsimp only [program]
    rw [hcalls i, SourceSlot.Later, (SourceSlot.bump_numberIn hslot).1]
    simp
  le_top slot _ := by
    have := slot.count.toNat_lt
    unfold SourceSlot.numberIn
    split
    · omega
    · omega
  top_pos := by decide

variable [DecidableEq ι]

/-- Some steps of the calls. -/
abbrev Runs (counts : SourceCounts) (calls : ι → CountCall) :
    Shared ι Nat SourceSlot Nat → Shared ι Nat SourceSlot Nat → Prop :=
  Relation.ReflTransGen (Next (counts.program calls))

section

variable {s s' : Shared ι Nat SourceSlot Nat} {window : UInt32} {i j : ι}

omit [DecidableEq ι] in
theorem sites_eq {key : Nat × Nat} (h : (calls i).source.budgetKey = key) :
    (counts.program calls).sites i = [(counts.slotsAt key).1, (counts.slotsAt key).2] := by
  rw [← h]
  rfl

/-- In one window, with no slot past it, the calls draw numbers. -/
theorem drawn_run (hcalls : ∀ i, (calls i).window = window)
    (hslots : ∀ slot, ¬ (counts.slots slot).Later window)
    (hrun : Runs counts calls (Shared.fresh ι Nat counts.slots) s) :
    Drawn (counts.program calls) (fun slot => ¬ slot.Later window) (SourceSlot.numberIn window)
      (2 ^ 32 - 1) s := by
  have hfresh : Drawn (counts.program calls) (fun slot => ¬ slot.Later window)
      (SourceSlot.numberIn window) (2 ^ 32 - 1) (Shared.fresh ι Nat counts.slots) :=
    drawn_fresh hslots
  exact hfresh.run (numbered hcalls) hrun

theorem card_le (hcalls : ∀ i, (calls i).window = window)
    (hslots : ∀ slot, ¬ (counts.slots slot).Later window)
    (hrun : Runs counts calls (Shared.fresh ι Nat counts.slots) s) {key : Nat × Nat} {L : Nat}
    (hL : L < 2 ^ 32 - 1) {S : Finset ι}
    (hS : ∀ i ∈ S, (calls i).source.budgetKey = key ∧ ∃ n ≤ L, Counted s i n) :
    S.card ≤ SOURCE_ROWS * L := by
  have hdrawn := drawn_run hcalls hslots hrun
  refine hdrawn.card_le hL (fun i hi => sites_eq (hS i hi).1) ?_
  intro i hi
  obtain ⟨hkey, n, hn, results, hreturned, hleast⟩ := hS i hi
  have hlength := hdrawn.returned hreturned
  rw [sites_eq hkey] at hlength
  match results, hlength with
  | [first, second], _ =>
    have hmin : min first second = n := hleast
    rw [hreturned]
    rcases Nat.le_total first second with hle | hle
    · exact ⟨0, first, by omega, Nat.succ_pos 1, rfl⟩
    · exact ⟨1, second, by omega, Nat.lt_succ_self 1, rfl⟩

theorem card_lt (hcalls : ∀ i, (calls i).window = window)
    (hslots : ∀ slot, ¬ (counts.slots slot).Later window)
    (hrun : Runs counts calls (Shared.fresh ι Nat counts.slots) s) (hidle : s.calls j = .idle)
    (hrun' : Runs counts calls s s') {n : Nat} (hj : Counted s' j n) {S : Finset ι}
    (hS : ∀ i ∈ S, (calls i).source.budgetKey = (calls j).source.budgetKey ∧ ∃ m, Counted s i m) :
    S.card < n ∨ n = 2 ^ 32 - 1 := by
  have hp : Numbered (counts.program calls) _ _ _ := numbered hcalls
  have hdrawn := drawn_run hcalls hslots hrun
  have hdrawn' := hdrawn.run hp hrun'
  have hnone : (s.calls j).results = [] := by rw [hidle]; rfl
  -- in each row the slot has numbered the calls of the set before this one
  have hrow {r k m : Nat} (hdrew : Drew (counts.program calls) s' k m j r) :
      S.card < m ∨ m = 2 ^ 32 - 1 := by
    have hge := hdrawn.le_result hp hnone hrun' hdrew
    have hle : min S.card (2 ^ 32 - 1) ≤ SourceSlot.numberIn window (s.cells k) := by
      apply hdrawn.le_number (r := r)
      intro i hi
      obtain ⟨hkey, m, results, hreturned, -⟩ := hS i hi
      have hsite := hdrew.site
      rw [sites_eq rfl] at hsite
      rw [← sites_eq hkey] at hsite
      have hr := (List.getElem?_eq_some_iff.mp hsite).1
      rw [← hdrawn.returned hreturned] at hr
      refine ⟨results[r], hsite, ?_⟩
      rw [hreturned]
      exact List.getElem?_eq_getElem hr
    have htop : m ≤ 2 ^ 32 - 1 :=
      Nat.le_trans (hdrawn'.bound hdrew).2 (hp.le_top _ (hdrawn'.inv k))
    omega
  obtain ⟨results, hreturned, hleast⟩ := hj
  have hlength := hdrawn'.returned hreturned
  match results, hlength with
  | [first, second], _ =>
    have hmin : min first second = n := hleast
    have hfirst := hrow (r := 0) ⟨rfl, by rw [hreturned]; rfl⟩
    have hsecond := hrow (r := 1) ⟨rfl, by rw [hreturned]; rfl⟩
    omega

end

/-! ### A call alone -/

/-- A call that nobody interrupts is the sequential `count`. -/
theorem run_count {s : Shared ι Nat SourceSlot Nat} {i : ι} (hidle : s.calls i = .idle) :
    ∃ s', Runs counts calls s s' ∧
      s'.cells = (count ⟨counts.hasher, s.cells⟩ (calls i).source (calls i).window).2.slots ∧
      Counted s' i (count ⟨counts.hasher, s.cells⟩ (calls i).source (calls i).window).1 ∧
      ∀ j, j ≠ i → s'.calls j = s.calls j := by
  obtain ⟨s', hrun, hcells, hreturned, hothers⟩ := run_pass (p := counts.program calls) hidle
  refine ⟨s', hrun, hcells, ⟨_, hreturned, ?_⟩, hothers⟩
  simp only [program, Program.pass, count, bumpAt, Function.update_self]
  rfl

/-! ### All interleavings -/

section

variable {s s' : Shared ι Nat SourceSlot Nat} {labels : List (Option (ι × Nat))} {base : UInt32}

theorem slots_trace (h : Trace (Step (counts.program calls)) s labels s') (slot : Nat) :
    s'.cells slot = ((exchangesAt slot labels).map fun i => (calls i).window).foldl
      SourceSlot.bump (s.cells slot) := by
  rw [cells_trace h slot, List.foldl_map]
  rfl

theorem advance (hcalls : ∀ i, SourceSlot.offset base (calls i).window < 2 ^ 31)
    (hslots : ∀ slot, SourceSlot.offset base (s.cells slot).window < 2 ^ 31)
    (h : Trace (Step (counts.program calls)) s labels s') (slot : Nat) :
    SourceSlot.offset base (s.cells slot).window ≤ SourceSlot.offset base (s'.cells slot).window ∧
      SourceSlot.offset base (s'.cells slot).window < 2 ^ 31 ∧
      ((s'.cells slot).window = (s.cells slot).window → (s'.cells slot).count.toNat =
        min ((s.cells slot).count.toNat + (exchangesAt slot labels).length) (2 ^ 32 - 1)) := by
  rw [slots_trace h slot]
  have hwithin : ∀ window ∈ (exchangesAt slot labels).map fun i => (calls i).window,
      SourceSlot.offset base window < 2 ^ 31 := by
    intro window hmem
    obtain ⟨i, -, rfl⟩ := List.mem_map.mp hmem
    exact hcalls i
  have hbumped := SourceSlot.foldl_bump (hslots slot) hwithin
  rwa [List.length_map] at hbumped

theorem within_run (hcalls : ∀ i, SourceSlot.offset base (calls i).window < 2 ^ 31)
    (hslots : ∀ slot, SourceSlot.offset base (s.cells slot).window < 2 ^ 31)
    (h : Runs counts calls s s') (slot : Nat) :
    SourceSlot.offset base (s'.cells slot).window < 2 ^ 31 := by
  induction h generalizing slot with
  | refl => exact hslots slot
  | tail _ hnext ih =>
    obtain ⟨label, hstep⟩ := hnext
    exact (advance hcalls ih (.single hstep) slot).2.1

/-- A call with a window not past the slot's counts there, a later one starts its own. -/
theorem advance_single {i : ι} {slot : Nat}
    (hcall : SourceSlot.offset base (calls i).window < 2 ^ 31)
    (hslot : SourceSlot.offset base (s.cells slot).window < 2 ^ 31)
    (h : Trace (Step (counts.program calls)) s [some (i, slot)] s') :
    if SourceSlot.offset base (calls i).window ≤ SourceSlot.offset base (s.cells slot).window
    then (s'.cells slot).window = (s.cells slot).window
    else s'.cells slot = ⟨(calls i).window, 1⟩ := by
  have hbump : s'.cells slot = (s.cells slot).bump (calls i).window := by
    rw [slots_trace h slot]
    simp [exchangesAt]
  rw [hbump]
  split
  · next hle =>
    exact (SourceSlot.bump_of_current ((SourceSlot.current_iff hslot hcall).mpr hle)).1
  · next hlater =>
    exact SourceSlot.bump_of_not_current fun hcurrent =>
      hlater ((SourceSlot.current_iff hslot hcall).mp hcurrent)

end

/-- Within half the range a slot's window only goes forward, every bump in it is counted, and
a call with an older window leaves it. In one window few calls return a small count, and a
call returns more than the calls of its key that returned before it started, as far as a
32-bit count can. -/
theorem shared_counts {ι : Type} [DecidableEq ι] (counts : SourceCounts) (calls : ι → CountCall) :
    (∀ base : UInt32, (∀ i, SourceSlot.offset base (calls i).window < 2 ^ 31) →
      (∀ slot, SourceSlot.offset base (counts.slots slot).window < 2 ^ 31) →
      ∀ s labels s', Runs counts calls (Shared.fresh ι Nat counts.slots) s →
        Trace (Step (counts.program calls)) s labels s' → ∀ slot,
        SourceSlot.offset base (s.cells slot).window ≤
            SourceSlot.offset base (s'.cells slot).window ∧
          ((s'.cells slot).window = (s.cells slot).window → (s'.cells slot).count.toNat =
            min ((s.cells slot).count.toNat + (exchangesAt slot labels).length) (2 ^ 32 - 1)) ∧
          ∀ i, labels = [some (i, slot)] →
            if SourceSlot.offset base (calls i).window ≤ SourceSlot.offset base (s.cells slot).window
            then (s'.cells slot).window = (s.cells slot).window
            else s'.cells slot = ⟨(calls i).window, 1⟩) ∧
    ∀ window, (∀ i, (calls i).window = window) → (∀ slot, ¬ (counts.slots slot).Later window) →
      ∀ s, Runs counts calls (Shared.fresh ι Nat counts.slots) s →
        (∀ (key : Nat × Nat) (L : Nat) (S : Finset ι), L < 2 ^ 32 - 1 →
          (∀ i ∈ S, (calls i).source.budgetKey = key ∧ ∃ n ≤ L, Counted s i n) →
          S.card ≤ SOURCE_ROWS * L) ∧
        ∀ s' j n (S : Finset ι), Runs counts calls s s' → s.calls j = .idle → Counted s' j n →
          (∀ i ∈ S, (calls i).source.budgetKey = (calls j).source.budgetKey ∧
            ∃ m, Counted s i m) → S.card < n ∨ n = 2 ^ 32 - 1 := by
  constructor
  · intro base hcalls hslots s labels s' hrun htrace slot
    have hwithin := within_run hcalls hslots hrun
    obtain ⟨hforward, -, hcounted⟩ := advance hcalls hwithin htrace slot
    refine ⟨hforward, hcounted, ?_⟩
    rintro i rfl
    exact advance_single (hcalls i) (hwithin slot) htrace
  · intro window hcalls hslots s hrun
    constructor
    · intro key L S hL hS
      exact card_le hcalls hslots hrun hL hS
    · intro s' j n S hrun' hidle hj hS
      exact card_lt hcalls hslots hrun hidle hrun' hj hS

/-- An empty table, and calls that all come from one source in its first window. -/
def emptyCounts : SourceCounts := .new fun _ => 0
def sameCalls : Nat → CountCall := fun _ => ⟨.address (.v4 0), 0⟩

/-- The calls below `n` have run, one after the other. -/
structure Filled (n : Nat) (s : Shared Nat Nat SourceSlot Nat) : Prop where
  run : Runs emptyCounts sameCalls (Shared.fresh Nat Nat emptyCounts.slots) s
  first : (s.cells 0).window = 0 ∧ (s.cells 0).count.toNat = min n (2 ^ 32 - 1)
  second : (s.cells SOURCE_SLOTS).window = 0 ∧
    (s.cells SOURCE_SLOTS).count.toNat = min n (2 ^ 32 - 1)
  counted : ∀ i < n, ∃ m, Counted s i m
  idle : ∀ i, n ≤ i → s.calls i = .idle

namespace Filled

variable {n : Nat} {s : Shared Nat Nat SourceSlot Nat}

theorem fresh : Filled 0 (Shared.fresh Nat Nat emptyCounts.slots) where
  run := .refl
  first := ⟨rfl, rfl⟩
  second := ⟨rfl, rfl⟩
  counted := nofun
  idle _ _ := rfl

theorem next (h : Filled n s) :
    ∃ s', Runs emptyCounts sameCalls s s' ∧ Filled (n + 1) s' ∧
      Counted s' n (min (n + 1) (2 ^ 32 - 1)) := by
  obtain ⟨s', hrun, hcells, hcounted, hothers⟩ :=
    @run_count Nat emptyCounts sameCalls _ s n (h.idle n (Nat.le_refl n))
  obtain ⟨hfirst, hfirstCount⟩ := SourceSlot.bump_of_current (.inl h.first.1)
  obtain ⟨hsecond, hsecondCount⟩ := SourceSlot.bump_of_current (.inl h.second.1)
  have hslots : s'.cells = Function.update (Function.update s.cells 0 ((s.cells 0).bump 0))
      SOURCE_SLOTS ((s.cells SOURCE_SLOTS).bump 0) := by
    rw [hcells]
    simp [count, bumpAt, slotsOf, emptyCounts, sameCalls, new, SOURCE_SLOTS]
  have hleast : (count ⟨emptyCounts.hasher, s.cells⟩ (sameCalls n).source (sameCalls n).window).1 =
      min ((s.cells 0).bump 0).count.toNat ((s.cells SOURCE_SLOTS).bump 0).count.toNat := by
    simp [count, bumpAt, slotsOf, emptyCounts, sameCalls, new, SOURCE_SLOTS]
  have hn : Counted s' n (min (n + 1) (2 ^ 32 - 1)) := by
    rw [hleast, hfirstCount, hsecondCount, h.first.2, h.second.2] at hcounted
    have heq : min (min (min n (2 ^ 32 - 1) + 1) (2 ^ 32 - 1))
        (min (min n (2 ^ 32 - 1) + 1) (2 ^ 32 - 1)) = min (n + 1) (2 ^ 32 - 1) := by omega
    rwa [heq] at hcounted
  refine ⟨s', hrun, ?_, hn⟩
  constructor
  case run => exact h.run.trans hrun
  case first =>
    have hzero : s'.cells 0 = (s.cells 0).bump 0 := by
      rw [hslots, Function.update_of_ne (by decide), Function.update_self]
    rw [hzero, hfirst, hfirstCount, h.first.2]
    exact ⟨h.first.1, by omega⟩
  case second =>
    rw [hslots, Function.update_self, hsecond, hsecondCount, h.second.2]
    exact ⟨h.second.1, by omega⟩
  case counted =>
    intro i hi
    rcases Nat.lt_succ_iff_lt_or_eq.mp hi with hlt | rfl
    · obtain ⟨m, results, hreturned, hm⟩ := h.counted i hlt
      exact ⟨m, results, (hothers i (Nat.ne_of_lt hlt)).trans hreturned, hm⟩
    · exact ⟨_, hn⟩
  case idle =>
    intro i hi
    rw [hothers i (Nat.ne_of_gt hi)]
    exact h.idle i (Nat.le_of_succ_le hi)

theorem exists_filled (n : Nat) : ∃ s, Filled n s := by
  induction n with
  | zero => exact ⟨_, fresh⟩
  | succ n ih =>
    obtain ⟨s, hs⟩ := ih
    obtain ⟨s', -, hs', -⟩ := hs.next
    exact ⟨s', hs'⟩

end Filled

/-- Two calls of one source, the second started when the first had returned. -/
theorem shared_counts_two :
    ∃ s s', Runs emptyCounts sameCalls (Shared.fresh Nat Nat emptyCounts.slots) s ∧
      Runs emptyCounts sameCalls s s' ∧
      (∀ slot, SourceSlot.offset 0 (s.cells slot).window ≤
        SourceSlot.offset 0 (s'.cells slot).window) ∧
      ((Finset.range 1).card < 2 ∨ 2 = 2 ^ 32 - 1) := by
  obtain ⟨s, -, hs, -⟩ := Filled.fresh.next
  obtain ⟨s', hrun, -, hlast⟩ := hs.next
  obtain ⟨labels, htrace⟩ := exists_trace hrun
  have hoffset : SourceSlot.offset 0 0 < 2 ^ 31 := by decide
  have hlater : ¬ SourceSlot.Later {} 0 := by simp [SourceSlot.Later]
  refine ⟨s, s', hs.run, hrun, ?_, ?_⟩
  · intro slot
    exact ((shared_counts emptyCounts sameCalls).1 0 (fun _ => hoffset) (fun _ => hoffset)
      s labels s' hs.run htrace slot).1
  · exact ((shared_counts emptyCounts sameCalls).2 0 (fun _ => rfl) (fun _ => hlater) s hs.run).2
      s' 1 2 (Finset.range 1) hrun (hs.idle 1 (Nat.le_refl 1)) hlast
      fun i hi => ⟨rfl, hs.counted i (Finset.mem_range.mp hi)⟩

/-- A full slot returns the count of the call before: `2 ^ 32 - 1` calls have returned when
this one starts, and it returns `2 ^ 32 - 1`. -/
theorem shared_counts_saturate :
    ∃ s s', Runs emptyCounts sameCalls (Shared.fresh Nat Nat emptyCounts.slots) s ∧
      Runs emptyCounts sameCalls s s' ∧ s.calls (2 ^ 32 - 1) = .idle ∧
      (∀ i ∈ Finset.range (2 ^ 32 - 1), ∃ m, Counted s i m) ∧
      ∃ n, Counted s' (2 ^ 32 - 1) n ∧ ¬ (Finset.range (2 ^ 32 - 1)).card < n := by
  obtain ⟨s, hs⟩ := Filled.exists_filled (2 ^ 32 - 1)
  obtain ⟨s', hrun, -, hlast⟩ := hs.next
  refine ⟨s, s', hs.run, hrun, hs.idle _ (Nat.le_refl _), ?_, _, hlast, ?_⟩
  · intro i hi
    exact hs.counted i (Finset.mem_range.mp hi)
  · rw [Finset.card_range]
    omega

end SourceCounts

end BoringTun

import Mathlib.Data.List.Nodup
import Mathlib.Data.List.Range
import Mathlib.Logic.Function.Basic

/-!
Serial numbers for what stands in a table.

Whatever is put into a place gets the next number, which stops growing at `limit`; a place that
is emptied has the number 0. A `Roll` is what an observer knows who saw every put: the one that
filled each place, and the numbers that were given.

* `Numbers.step`: the numbers in the table stay those of the roll;
* `Numbers.ne_zero_iff`, `Numbers.place_unique`, `Numbers.lt_next`: below the limit they tell
  apart what stands in the table;
* `Numbers.nodup`: none is given twice;
* `Numbers.eq_iff`: two places have one number, now and later, exactly if the same put filled
  them.
-/

namespace BoringTun

variable {ι : Type*}

structure Roll (ι : Type*) where
  /-- The put that filled each place, counted from 0. -/
  holder : ι → Option Nat
  /-- The numbers given, the latest first. -/
  given : List Nat

namespace Roll

/-- Nothing was put anywhere. -/
def empty (ι : Type*) : Roll ι where
  holder _ := none
  given := []

/-- Something may be put into one place, and others may be emptied. -/
def step [DecidableEq ι] (roll : Roll ι) (stored : Option ι) (occupied : ι → Bool)
    (serial : ι → Nat) : Roll ι where
  holder i :=
    if stored = some i then some roll.given.length
    else if occupied i then roll.holder i else none
  given := (stored.map serial).toList ++ roll.given

/-- The number for a put, as the table gives it. -/
def number (limit put : Nat) : Nat := min (put + 1) limit

/-- A table numbered as the roll says. -/
structure Numbers (limit : Nat) (roll : Roll ι) (occupied : ι → Bool) (serial : ι → Nat)
    (next : Nat) : Prop where
  occupied : ∀ i, (roll.holder i).isSome = occupied i
  serial : ∀ i, serial i = (roll.holder i).elim 0 (number limit)
  next : next = number limit roll.given.length
  holder_lt : ∀ i put, roll.holder i = some put → put < roll.given.length
  holder_unique : ∀ i j put, roll.holder i = some put → roll.holder j = some put → i = j
  given : roll.given = (List.range roll.given.length).reverse.map (number limit)

variable {limit : Nat} {roll roll' : Roll ι} {occupied occupied' : ι → Bool}
  {serial serial' : ι → Nat} {next next' : Nat}

theorem number_of_lt {put : Nat} (h : put < limit) : number limit put = put + 1 :=
  Nat.min_eq_left h

namespace Numbers

theorem empty : Numbers limit (Roll.empty ι) (fun _ => false) (fun _ => 0) (number limit 0) where
  occupied _ := rfl
  serial _ := rfl
  next := rfl
  holder_lt := nofun
  holder_unique := nofun
  given := rfl

section

variable [DecidableEq ι] {stored : Option ι}

theorem step_holder {i : ι} {put : Nat} (h : (roll.step stored occupied serial).holder i = some put) :
    (stored = some i ∧ put = roll.given.length) ∨
      (stored ≠ some i ∧ occupied i = true ∧ roll.holder i = some put) := by
  unfold Roll.step at h
  dsimp only at h
  split at h
  · next hstored =>
    cases h
    exact .inl ⟨hstored, rfl⟩
  · next hother =>
    split at h
    · next hoccupied => exact .inr ⟨hother, hoccupied, h⟩
    · cases h

theorem step_length : (roll.step stored occupied serial).given.length =
    roll.given.length + if stored.isSome then 1 else 0 := by
  unfold Roll.step
  cases stored with
  | none => rfl
  | some i => rfl

/-- What is put into a place gets the next number, and what stays keeps its own. -/
theorem step (h : Numbers limit roll occupied serial next)
    (hstored : ∀ i, stored = some i → occupied' i = true ∧ serial' i = next)
    (hkept : ∀ i, stored ≠ some i →
      occupied' i = occupied i ∧ serial' i = serial i ∨ occupied' i = false ∧ serial' i = 0)
    (hnext : next' = if stored.isSome then min (next + 1) limit else next) :
    Numbers limit (roll.step stored occupied' serial') occupied' serial' next' := by
  refine ⟨?_, ?_, ?_, ?_, ?_, ?_⟩
  · intro i
    unfold Roll.step
    dsimp only
    split
    · next hi => exact (hstored i hi).1.symm
    · next hi =>
      rcases hkept i hi with ⟨hsame, -⟩ | ⟨hgone, -⟩
      · cases hoccupied : occupied' i with
        | false => rfl
        | true => exact (h.occupied i).trans (hsame.symm.trans hoccupied)
      · rw [hgone]
        rfl
  · intro i
    unfold Roll.step
    dsimp only
    split
    · next hi => exact (hstored i hi).2.trans h.next
    · next hi =>
      rcases hkept i hi with ⟨hsame, hserial⟩ | ⟨hgone, hserial⟩
      · rw [hserial, h.serial i]
        cases hoccupied : occupied' i with
        | false =>
          have hnone : (roll.holder i).isSome = false :=
            (h.occupied i).trans (hsame.symm.trans hoccupied)
          rw [Option.isSome_eq_false_iff, Option.isNone_iff_eq_none] at hnone
          rw [hnone]
          rfl
        | true => rfl
      · rw [hgone, hserial]
        rfl
  · rw [hnext, step_length, h.next]
    unfold number
    split <;> omega
  · intro i put hput
    rw [step_length]
    rcases step_holder hput with ⟨hi, rfl⟩ | ⟨-, -, hold⟩
    · rw [hi]
      exact Nat.lt_succ_self _
    · exact Nat.lt_of_lt_of_le (h.holder_lt i put hold) (Nat.le_add_right _ _)
  · intro i j put hi hj
    -- what stood in the table was put before
    rcases step_holder hi with ⟨hi, hput⟩ | ⟨-, -, hi⟩ <;>
      rcases step_holder hj with ⟨hj, hput'⟩ | ⟨-, -, hj⟩
    · exact Option.some.inj (hi.symm.trans hj)
    · exact absurd (h.holder_lt j put hj) (Nat.not_lt_of_ge hput.ge)
    · exact absurd (h.holder_lt i put hi) (Nat.not_lt_of_ge hput'.ge)
    · exact h.holder_unique i j put hi hj
  · rw [step_length]
    cases hslot : stored with
    | none => exact h.given
    | some i =>
      change serial' i :: roll.given = (List.range (roll.given.length + 1)).reverse.map (number limit)
      rw [List.range_succ, List.reverse_append, List.map_append, ← h.given, (hstored i hslot).2,
        h.next]
      rfl

end

variable (h : Numbers limit roll occupied serial next)

include h

theorem serial_eq (hlimit : roll.given.length ≤ limit) (i : ι) :
    serial i = (roll.holder i).elim 0 (· + 1) := by
  rw [h.serial i]
  cases hput : roll.holder i with
  | none => rfl
  | some put => exact number_of_lt (Nat.lt_of_lt_of_le (h.holder_lt i put hput) hlimit)

theorem ne_zero_iff (hlimit : roll.given.length ≤ limit) (i : ι) :
    serial i ≠ 0 ↔ occupied i = true := by
  rw [h.serial_eq hlimit, ← h.occupied]
  cases roll.holder i <;> simp

/-- Two places have one number, now and later, exactly if the same put filled them. -/
theorem eq_iff (h' : Numbers limit roll' occupied' serial' next')
    (hlimit : roll.given.length ≤ limit) (hlimit' : roll'.given.length ≤ limit) (i j : ι) :
    serial i = serial' j ↔ roll.holder i = roll'.holder j := by
  rw [h.serial_eq hlimit, h'.serial_eq hlimit']
  cases roll.holder i <;> cases roll'.holder j <;> simp

theorem place_unique (hlimit : roll.given.length ≤ limit) {i j : ι} (hne : serial i ≠ 0)
    (heq : serial i = serial j) : i = j := by
  have hheld : (roll.holder i).isSome = true := by
    rw [h.occupied]
    exact (h.ne_zero_iff hlimit i).mp hne
  obtain ⟨put, hput⟩ := Option.isSome_iff_exists.mp hheld
  have hsame := (h.eq_iff h hlimit hlimit i j).mp heq
  exact h.holder_unique i j put hput (hsame.symm.trans hput)

theorem lt_next (hlimit : roll.given.length < limit) (i : ι) : serial i < next := by
  rw [h.serial_eq (Nat.le_of_lt hlimit), h.next, number_of_lt hlimit]
  cases hput : roll.holder i with
  | none => exact Nat.succ_pos _
  | some put => exact Nat.succ_lt_succ (h.holder_lt i put hput)

theorem nodup (hlimit : roll.given.length ≤ limit) : roll.given.Nodup := by
  rw [h.given]
  refine List.Nodup.map_on ?_ (List.nodup_reverse.mpr List.nodup_range)
  intro m hm n hn heq
  rw [List.mem_reverse, List.mem_range] at hm hn
  rw [number_of_lt (Nat.lt_of_lt_of_le hm hlimit), number_of_lt (Nat.lt_of_lt_of_le hn hlimit)]
    at heq
  exact Nat.succ.inj heq

end Numbers

end Roll

end BoringTun

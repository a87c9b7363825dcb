import Mathlib.Data.List.Induction

/-!
Who holds what, when holders are given keys, give all of theirs up for others, or leave: each
key is with the holder it was last given to, unless that holder has left or has given it up
since (`Handover.holder_iff`).
-/

namespace BoringTun

/-- One change of who holds what. -/
inductive Handover (κ ω : Type*) where
  /-- `holder` is given `keys`; with `replacing`, instead of those it has. -/
  | give (holder : ω) (keys : List κ) (replacing : Bool)
  /-- `holder` leaves. -/
  | leave (holder : ω)
  /-- Everyone leaves. -/
  | clear
  /-- Nothing changes hands. -/
  | keep

namespace Handover

variable {κ ω : Type*}

def apply [DecidableEq κ] [DecidableEq ω] (held : κ → Option ω) : Handover κ ω → κ → Option ω
  | give holder keys replacing, key =>
    if key ∈ keys then some holder
    else if replacing ∧ held key = some holder then none
    else held key
  | leave holder, key => if held key = some holder then none else held key
  | clear, _ => none
  | keep, key => held key

/-- `key` is given to `holder`. -/
def Gives (key : κ) (holder : ω) : Handover κ ω → Prop
  | give holder' keys _ => holder' = holder ∧ key ∈ keys
  | _ => False

/-- What `holder` had it has no more. -/
def Ends (holder : ω) : Handover κ ω → Prop
  | give holder' _ replacing => holder' = holder ∧ replacing = true
  | leave holder' => holder' = holder
  | clear => True
  | keep => False

/-- `key` is with `holder` by some change of the history, and no later one took it away. -/
def LastGiven (history : List (Handover κ ω)) (key : κ) (holder : ω) : Prop :=
  ∃ earlier change later, history = earlier ++ change :: later ∧ change.Gives key holder ∧
    ∀ later' ∈ later, (∀ other, ¬ later'.Gives key other) ∧ ¬ later'.Ends holder

theorem not_lastGiven_nil (key : κ) (holder : ω) : ¬ LastGiven [] key holder := by
  rintro ⟨earlier, change, later, heq, -⟩
  cases earlier with
  | nil => cases heq
  | cons => cases heq

/-- The newest change decides, or leaves it to those before. -/
theorem lastGiven_concat (history : List (Handover κ ω)) (change : Handover κ ω) (key : κ)
    (holder : ω) :
    LastGiven (history ++ [change]) key holder ↔ change.Gives key holder ∨
      (LastGiven history key holder ∧ (∀ other, ¬ change.Gives key other) ∧ ¬ change.Ends holder) := by
  constructor
  · rintro ⟨earlier, given, later, heq, hgives, hlater⟩
    rcases List.eq_nil_or_concat later with rfl | ⟨later, newest, rfl⟩
    · obtain ⟨-, hlast⟩ := List.append_inj' heq rfl
      cases hlast
      exact .inl hgives
    · rw [List.concat_eq_append] at hlater heq
      rw [← List.cons_append, ← List.append_assoc] at heq
      obtain ⟨rfl, hlast⟩ := List.append_inj' heq rfl
      cases hlast
      refine .inr ⟨⟨earlier, given, later, rfl, hgives,
        fun later' hmem => hlater later' (by simp [hmem])⟩, ?_⟩
      exact hlater change (by simp)
  · rintro (hgives | ⟨⟨earlier, given, later, rfl, hgives, hlater⟩, hnewest⟩)
    · exact ⟨history, change, [], rfl, hgives, nofun⟩
    · refine ⟨earlier, given, later ++ [change], by simp, hgives, ?_⟩
      intro later' hmem
      rcases List.mem_append.mp hmem with hmem | hmem
      · exact hlater later' hmem
      · rw [List.mem_singleton.mp hmem]
        exact hnewest

variable [DecidableEq κ] [DecidableEq ω]

theorem apply_eq_some (held : κ → Option ω) (change : Handover κ ω) (key : κ) (holder : ω) :
    change.apply held key = some holder ↔ change.Gives key holder ∨
      (held key = some holder ∧ (∀ other, ¬ change.Gives key other) ∧ ¬ change.Ends holder) := by
  cases change with
  | give holder' keys replacing =>
    by_cases hkey : key ∈ keys
    · simp [apply, Gives, hkey]
    · cases replacing with
      | false => simp [apply, Gives, Ends, hkey]
      | true =>
        by_cases hheld : held key = some holder'
        · simp [apply, Gives, Ends, hkey, hheld]
        · have hother : held key = some holder → holder' ≠ holder := by
            rintro hheld' rfl
            exact hheld hheld'
          simpa [apply, Gives, Ends, hkey, hheld] using hother
  | leave holder' =>
    by_cases hheld : held key = some holder'
    · simp [apply, Gives, Ends, hheld]
    · have hother : held key = some holder → holder' ≠ holder := by
        rintro hheld' rfl
        exact hheld hheld'
      simpa [apply, Gives, Ends, hheld] using hother
  | clear | keep => simp [apply, Gives, Ends]

/-- After any history each key is with the holder it was last given to, or with nobody. -/
theorem holder_iff (history : List (Handover κ ω)) (key : κ) (holder : ω) :
    history.foldl apply (fun _ => none) key = some holder ↔ LastGiven history key holder := by
  induction history using List.reverseRecOn generalizing holder with
  | nil => exact ⟨nofun, fun h => absurd h (not_lastGiven_nil key holder)⟩
  | append_singleton history change ih =>
    rw [List.foldl_append, lastGiven_concat, ← ih]
    exact apply_eq_some _ change key holder

end Handover

end BoringTun

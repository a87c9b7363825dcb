import Mathlib.Data.List.AList

/-!
Finite maps as association lists (`AList`): keeping the entries that pass a test, giving one
value to a list of keys, and the values of a map.
-/

namespace BoringTun

namespace Assoc

variable {κ ω : Type*}

/-- A finite map with values of one type. -/
abbrev Map (κ ω : Type*) := AList fun _ : κ => ω

/-- The entries that pass `p`. -/
def retain (p : κ → ω → Bool) (m : Map κ ω) : Map κ ω where
  entries := m.entries.filter fun entry => p entry.1 entry.2
  nodupKeys := m.nodupKeys.sublist List.filter_sublist

def values (m : Map κ ω) : List ω := m.entries.map Sigma.snd

/-- The keys of a value. -/
def keysOf [DecidableEq ω] (m : Map κ ω) (value : ω) : List κ :=
  (m.entries.filter fun entry => entry.2 = value).map Sigma.fst

variable [DecidableEq κ]

/-- Give `value` to every key of a list. -/
def giveAll (m : Map κ ω) (keys : List κ) (value : ω) : Map κ ω :=
  keys.foldl (fun m key => m.insert key value) m

theorem lookup_eq_some {m : Map κ ω} {key : κ} {value : ω} :
    m.lookup key = some value ↔ ⟨key, value⟩ ∈ m.entries :=
  AList.mem_lookup_iff

theorem lookup_erase_eq_some {m : Map κ ω} {key key' : κ} {value : ω} :
    (m.erase key').lookup key = some value ↔ key ≠ key' ∧ m.lookup key = some value := by
  by_cases heq : key = key'
  · subst heq
    simp
  · simp [heq, AList.lookup_erase_ne heq]

theorem lookup_insert_eq_some {m : Map κ ω} {key key' : κ} {value value' : ω} :
    (m.insert key' value').lookup key = some value ↔
      key = key' ∧ value' = value ∨ key ≠ key' ∧ m.lookup key = some value := by
  by_cases heq : key = key'
  · subst heq
    simp
  · simp [heq, AList.lookup_insert_ne heq]

theorem lookup_retain (p : κ → ω → Bool) (m : Map κ ω) (key : κ) :
    (retain p m).lookup key = (m.lookup key).filter (p key) := by
  apply Option.ext
  intro value
  rw [Option.filter_eq_some_iff, lookup_eq_some, lookup_eq_some]
  exact List.mem_filter

theorem lookup_giveAll (keys : List κ) (value : ω) (m : Map κ ω) (key : κ) :
    (giveAll m keys value).lookup key = if key ∈ keys then some value else m.lookup key := by
  induction keys generalizing m with
  | nil => rfl
  | cons first rest ih =>
    have hstep : (giveAll m (first :: rest) value).lookup key =
      if key ∈ rest then some value else (m.insert first value).lookup key := ih _
    rw [hstep]
    by_cases hrest : key ∈ rest
    · simp [hrest]
    · by_cases hfirst : key = first
      · subst hfirst
        simp
      · simp [hrest, hfirst, AList.lookup_insert_ne hfirst]

theorem mem_values {m : Map κ ω} {value : ω} :
    value ∈ values m ↔ ∃ key, m.lookup key = some value := by
  constructor
  · intro hmem
    obtain ⟨⟨key, _⟩, hentry, rfl⟩ := List.mem_map.mp hmem
    exact ⟨key, lookup_eq_some.mpr hentry⟩
  · rintro ⟨key, hkey⟩
    exact List.mem_map.mpr ⟨⟨key, value⟩, lookup_eq_some.mp hkey, rfl⟩

theorem mem_keysOf [DecidableEq ω] {m : Map κ ω} {value : ω} {key : κ} :
    key ∈ keysOf m value ↔ m.lookup key = some value := by
  rw [lookup_eq_some]
  constructor
  · intro hmem
    obtain ⟨⟨_, _⟩, hentry, rfl⟩ := List.mem_map.mp hmem
    obtain ⟨hentry, hvalue⟩ := List.mem_filter.mp hentry
    rwa [← of_decide_eq_true hvalue]
  · intro hentry
    exact List.mem_map.mpr ⟨⟨key, value⟩, List.mem_filter.mpr ⟨hentry, by simp⟩, rfl⟩

end Assoc

end BoringTun

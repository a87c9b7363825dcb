import Mathlib.Data.List.Basic

/-!
Cutting a stream after each delimiter, where a delimiter is two adjacent elements that `ends`
accepts.

* `cutFrom_eq`: a search that begins where an earlier one left off finds the same cut;
* `Cuts`: the pieces of a stream from left to right, and what is left of it.
-/

namespace BoringTun

variable {α : Type*}

/-- Adjacent elements. -/
def pairs (s : List α) : List (α × α) := s.zip s.tail

theorem pairs_drop (s : List α) (k : Nat) : pairs (s.drop k) = (pairs s).drop k := by
  unfold pairs
  rw [List.zip_eq_zipWith, List.zip_eq_zipWith, List.drop_zipWith, List.tail_drop, List.drop_tail]

theorem pairs_take (s : List α) (k : Nat) : pairs (s.take (k + 1)) = (pairs s).take k := by
  induction k generalizing s with
  | zero =>
    cases s with
    | nil => rfl
    | cons a s => rfl
  | succ k ih =>
    match s with
    | [] => rfl
    | [a] => rfl
    | a :: b :: s => exact congrArg ((a, b) :: ·) (ih (b :: s))

theorem length_pairs (s : List α) : (pairs s).length = s.length - 1 := by
  unfold pairs
  rw [List.length_zip, List.length_tail]
  omega

variable (ends : α → α → Bool)

/-- Where the first delimiter at `start` or later ends. -/
def cutFrom (start : Nat) (s : List α) : Option Nat :=
  ((pairs (s.drop start)).findIdx? fun p => ends p.1 p.2).map (start + · + 2)

/-- Where the first delimiter ends. -/
def cut (s : List α) : Option Nat := cutFrom ends 0 s

variable {ends} {s t : List α} {n start : Nat}

theorem cut_eq_none : cut ends s = none ↔ ∀ p ∈ pairs s, ends p.1 p.2 = false := by
  unfold cut cutFrom
  rw [Option.map_eq_none_iff, List.findIdx?_eq_none_iff]
  rfl

theorem cut_cons_cons (a b : α) (s : List α) :
    cut ends (a :: b :: s) = if ends a b then some 2 else (cut ends (b :: s)).map (· + 1) := by
  change ((((a, b) :: pairs (b :: s)).findIdx? fun p => ends p.1 p.2).map (0 + · + 2)) =
    if ends a b then some 2
    else (((pairs (b :: s)).findIdx? fun p => ends p.1 p.2).map (0 + · + 2)).map (· + 1)
  rw [List.findIdx?_cons]
  split
  · rfl
  · rw [Option.map_map, Option.map_map]
    congr 1

theorem cut_of_length_le (h : s.length ≤ 1) : cut ends s = none := by
  have hempty : pairs s = [] := by
    apply List.eq_nil_of_length_eq_zero
    rw [length_pairs]
    omega
  rw [cut_eq_none, hempty]
  exact fun _ hp => absurd hp List.not_mem_nil

theorem cut_le (h : cut ends s = some n) : 2 ≤ n ∧ n ≤ s.length := by
  unfold cut cutFrom at h
  obtain ⟨k, hk, rfl⟩ := Option.map_eq_some_iff.mp h
  have hlt := (List.findIdx?_eq_some_iff_findIdx_eq.mp hk).1
  rw [length_pairs] at hlt
  change k < s.length - 1 at hlt
  omega

/-- A search need not look again at what it has been through. -/
theorem cutFrom_eq (h : cut ends (s.take (start + 1)) = none) :
    cutFrom ends start s = cut ends s := by
  rw [cut_eq_none, pairs_take] at h
  have hsplit : ((pairs s).take start ++ (pairs s).drop start).findIdx? (fun p => ends p.1 p.2) =
      _ := List.findIdx?_append
  rw [List.take_append_drop, List.findIdx?_eq_none_iff.mpr h, Option.none_or] at hsplit
  unfold cut cutFrom
  rw [List.drop_zero, hsplit, pairs_drop, Option.map_map]
  cases hfound : ((pairs s).drop start).findIdx? fun p => ends p.1 p.2 with
  | none => rfl
  | some k =>
    have hlt := (List.findIdx?_eq_some_iff_findIdx_eq.mp hfound).1
    have hlength : ((pairs s).take start).length = start := by
      rw [List.length_drop] at hlt
      rw [List.length_take]
      omega
    rw [Option.map_some, Option.map_some, Function.comp_apply, hlength]
    congr 1
    omega

/-- What comes later moves no cut. -/
theorem cut_append (h : cut ends s = some n) (t : List α) : cut ends (s ++ t) = some n := by
  obtain ⟨htwo, hle⟩ := cut_le h
  have htake : pairs s = (pairs (s ++ t)).take (s.length - 1) := by
    rw [← pairs_take, show s.length - 1 + 1 = s.length by omega, List.take_left]
  have hsplit : ((pairs (s ++ t)).take (s.length - 1) ++
      (pairs (s ++ t)).drop (s.length - 1)).findIdx? (fun p => ends p.1 p.2) = _ :=
    List.findIdx?_append
  unfold cut cutFrom at h ⊢
  rw [List.drop_zero] at h ⊢
  obtain ⟨k, hk, hn⟩ := Option.map_eq_some_iff.mp h
  rw [List.take_append_drop, ← htake, hk, Option.some_or] at hsplit
  rw [hsplit, Option.map_some, hn]

/-! ### All the cuts -/

variable (ends) in
/-- The first pieces of a stream and what follows them. -/
inductive Cuts : List α → List (List α) → List α → Prop where
  | nil (s : List α) : Cuts s [] s
  | cons {s : List α} {n : Nat} {pieces : List (List α)} {rest : List α}
    (hcut : cut ends s = some n) (hrest : Cuts (s.drop n) pieces rest) :
    Cuts s (s.take n :: pieces) rest

namespace Cuts

variable {pieces pieces' : List (List α)} {rest rest' : List α}

/-- What comes later moves none of them. -/
theorem append (h : Cuts ends s pieces rest) (t : List α) :
    Cuts ends (s ++ t) pieces (rest ++ t) := by
  induction h with
  | nil => exact .nil _
  | @cons s n pieces rest hcut _ ih =>
    have hle := (cut_le hcut).2
    have hnext : Cuts ends ((s ++ t).drop n) pieces (rest ++ t) := by
      rw [List.drop_append_of_le_length hle]
      exact ih
    rw [← List.take_append_of_le_length hle]
    exact .cons (cut_append hcut t) hnext

/-- The next piece is cut off what is left. -/
theorem snoc (h : Cuts ends s pieces rest) (hcut : cut ends rest = some n) :
    Cuts ends s (pieces ++ [rest.take n]) (rest.drop n) := by
  induction h with
  | nil s => exact .cons hcut (.nil _)
  | cons hfirst _ ih => exact .cons hfirst (ih hcut)

end Cuts

end BoringTun

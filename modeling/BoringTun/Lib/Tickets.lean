import BoringTun.Lib.Machine
import Mathlib.Data.Finset.Card
import Mathlib.Data.Finset.Prod
import Mathlib.Logic.Function.Basic
import Mathlib.Order.Interval.Finset.Nat

/-!
Calls that update the cells of a shared table, one cell after the other.

Each call visits a list of cells. At each it loads and then compares and exchanges until an
exchange succeeds, and it keeps a result for each cell. Any number of calls are interleaved.
A load and a failed exchange may return any value; only a successful exchange is bound to the
cell's present one.

* `cells_trace`: a cell is what its exchanges made of it, in their order;
* `run_pass`: a call alone makes its visits one after the other;
* `Numbered`: updates that number the visits of a cell up to a ceiling;
* `Drawn`: no number below the ceiling is drawn twice from one cell;
* `Drawn.card_le`: few calls draw a small number;
* `Drawn.le_result`: a call draws a larger number than the calls that returned before it.
-/

namespace BoringTun.Tickets

variable {ι κ α β : Type*}

/-- Where one call stands: what it has kept so far, and the value it holds from a load. -/
inductive Call (α β : Type*) where
  | idle
  | running (results : List β) (held : Option α)
  | returned (results : List β)

def Call.results : Call α β → List β
  | .idle => []
  | .running results _ => results
  | .returned results => results

structure Shared (ι κ α β : Type*) where
  cells : κ → α
  calls : ι → Call α β

/-- A table nobody has called on. -/
def Shared.fresh (ι β : Type*) (cells : κ → α) : Shared ι κ α β where
  cells := cells
  calls _ := .idle

/-- What the calls do. -/
structure Program (ι κ α β : Type*) where
  /-- The cells of a call, in the order it visits them. -/
  sites : ι → List κ
  update : ι → α → α
  /-- What a call keeps of the value it overwrote. -/
  result : ι → α → β

/-- In row `r` call `i` visited `k` and kept `result`. -/
structure Drew (p : Program ι κ α β) (s : Shared ι κ α β) (k : κ) (result : β) (i : ι)
    (r : Nat) : Prop where
  site : (p.sites i)[r]? = some k
  kept : (s.calls i).results[r]? = some result

/-- Updates that number the visits of a cell, on the values of `inv`; past `top` the number
stands still. -/
structure Numbered (p : Program ι κ α Nat) (inv : α → Prop) (number : α → Nat) (top : Nat) :
    Prop where
  update : ∀ i v, inv v → number (p.update i v) = min (number v + 1) top
  result : ∀ i v, inv v → p.result i v = min (number v + 1) top
  keeps : ∀ i v, inv v → inv (p.update i v)
  le_top : ∀ v, inv v → number v ≤ top
  top_pos : 0 < top

/-- What the calls have drawn so far. -/
structure Drawn (p : Program ι κ α Nat) (inv : α → Prop) (number : α → Nat) (top : Nat)
    (s : Shared ι κ α Nat) : Prop where
  inv : ∀ k, inv (s.cells k)
  bound : ∀ {k n i r}, Drew p s k n i r → 0 < n ∧ n ≤ number (s.cells k)
  once : ∀ {k n i j r q}, Drew p s k n i r → Drew p s k n j q → i = j ∧ r = q ∨ n = top
  returned : ∀ {i results}, s.calls i = .returned results → results.length = (p.sites i).length

section

variable {p : Program ι κ α Nat} {inv : α → Prop} {number : α → Nat} {top : Nat}

theorem drawn_fresh {cells : κ → α} (hinv : ∀ k, inv (cells k)) :
    Drawn p inv number top (Shared.fresh ι Nat cells) where
  inv := hinv
  bound h := nomatch h.kept
  once h := nomatch h.kept
  returned := nofun

theorem Numbered.le_update (hp : Numbered p inv number top) (i : ι) {v : α} (hv : inv v) :
    number v ≤ number (p.update i v) := by
  have := hp.le_top v hv
  rw [hp.update i v hv]
  omega

end

variable [DecidableEq ι] [DecidableEq κ]

def Shared.move (s : Shared ι κ α β) (i : ι) (call : Call α β) : Shared ι κ α β :=
  { s with calls := Function.update s.calls i call }

/-- The exchange of call `i` at cell `k`. -/
def Program.exchange (p : Program ι κ α β) (s : Shared ι κ α β) (i : ι) (k : κ)
    (results : List β) : Shared ι κ α β where
  cells := Function.update s.cells k (p.update i (s.cells k))
  calls := Function.update s.calls i (.running (results ++ [p.result i (s.cells k)]) none)

variable (p : Program ι κ α β)

/-- One atomic step. An exchange is labelled with its call and its cell. -/
inductive Step : Option (ι × κ) → Shared ι κ α β → Shared ι κ α β → Prop
  | start {s : Shared ι κ α β} {i : ι} (hcall : s.calls i = .idle) :
    Step none s (s.move i (.running [] none))
  /-- A load, or an exchange that failed. -/
  | load {s : Shared ι κ α β} {i : ι} {results : List β} {held : Option α} (v : α)
    (hcall : s.calls i = .running results held) (hsite : results.length < (p.sites i).length) :
    Step none s (s.move i (.running results (some v)))
  | exchange {s : Shared ι κ α β} {i : ι} {k : κ} {results : List β}
    (hcall : s.calls i = .running results (some (s.cells k)))
    (hsite : (p.sites i)[results.length]? = some k) : Step (some (i, k)) s (p.exchange s i k results)
  | finish {s : Shared ι κ α β} {i : ι} {results : List β}
    (hcall : s.calls i = .running results none) (hdone : results.length = (p.sites i).length) :
    Step none s (s.move i (.returned results))

/-- A step of some call. -/
def Next (s s' : Shared ι κ α β) : Prop := ∃ label, Step p label s s'

variable {p} {s s' s'' : Shared ι κ α β} {i j : ι} {k : κ}

omit [DecidableEq κ] in
theorem Shared.move_calls (s : Shared ι κ α β) (i j : ι) (call : Call α β) :
    (s.move i call).calls j = if j = i then call else s.calls j :=
  Function.update_apply _ _ _ _

omit [DecidableEq κ] in
theorem Shared.results_move (s : Shared ι κ α β) {i : ι} {call : Call α β}
    (hsame : call.results = (s.calls i).results) (j : ι) :
    ((s.move i call).calls j).results = (s.calls j).results := by
  rw [s.move_calls]
  split
  · next hj => rw [hsame, hj]
  · rfl

theorem Program.exchange_calls (p : Program ι κ α β) (s : Shared ι κ α β) (i j : ι) (k : κ)
    (results : List β) : (p.exchange s i k results).calls j =
      if j = i then .running (results ++ [p.result i (s.cells k)]) none else s.calls j :=
  Function.update_apply _ _ _ _

theorem Program.exchange_cells (p : Program ι κ α β) (s : Shared ι κ α β) (i : ι) (k k' : κ)
    (results : List β) : (p.exchange s i k results).cells k' =
      if k' = k then p.update i (s.cells k) else s.cells k' :=
  Function.update_apply _ _ _ _

/-- Other steps touch neither a cell nor what a call has kept. -/
theorem Step.silent (h : Step p none s s') :
    s'.cells = s.cells ∧ ∀ j, (s'.calls j).results = (s.calls j).results := by
  cases h with
  | start hcall | load v hcall hsite | finish hcall hdone =>
    exact ⟨rfl, s.results_move (by rw [hcall]; rfl)⟩

/-! ### What becomes of a cell -/

/-- The calls that exchanged at `k`, in order. -/
def exchangesAt (k : κ) (labels : List (Option (ι × κ))) : List ι :=
  labels.filterMap fun label => label.bind fun (i, site) => if site = k then some i else none

theorem Step.cells {label : Option (ι × κ)} (h : Step p label s s') (k : κ) :
    s'.cells k = (exchangesAt k [label]).foldl (fun v i => p.update i v) (s.cells k) := by
  cases h with
  | exchange hcall hsite =>
    rw [p.exchange_cells]
    split
    · next hk => simp [exchangesAt, hk]
    · next hk => simp [exchangesAt, Ne.symm hk]
  | _ => rfl

omit [DecidableEq ι] in
theorem exchangesAt_cons (k : κ) (label : Option (ι × κ)) (labels : List (Option (ι × κ))) :
    exchangesAt k (label :: labels) = exchangesAt k [label] ++ exchangesAt k labels := by
  unfold exchangesAt
  rw [← List.filterMap_append, List.singleton_append]

theorem cells_trace {labels : List (Option (ι × κ))} (h : Trace (Step p) s labels s') (k : κ) :
    s'.cells k = (exchangesAt k labels).foldl (fun v i => p.update i v) (s.cells k) := by
  induction h with
  | nil => rfl
  | @cons label labels s s' s'' hstep _ ih =>
    rw [ih, hstep.cells k, exchangesAt_cons k label labels, List.foldl_append]

theorem exists_trace (h : Relation.ReflTransGen (Next p) s s') :
    ∃ labels, Trace (Step p) s labels s' := by
  induction h with
  | refl => exact ⟨[], .nil s⟩
  | tail _ hnext ih =>
    obtain ⟨labels, htrace⟩ := ih
    obtain ⟨label, hstep⟩ := hnext
    exact ⟨labels ++ [label], htrace.append (.single hstep)⟩

/-! ### A call alone -/

/-- The visits of call `i`, with nobody else about: what it keeps, and the cells after it. -/
def Program.pass (p : Program ι κ α β) (i : ι) : List κ → (κ → α) → List β × (κ → α)
  | [], cells => ([], cells)
  | k :: sites, cells =>
    let (results, after) := p.pass i sites (Function.update cells k (p.update i (cells k)))
    (p.result i (cells k) :: results, after)

theorem run_visit {results : List β} (hcall : s.calls i = .running results none)
    (hsite : (p.sites i)[results.length]? = some k) :
    ∃ s', Relation.ReflTransGen (Next p) s s' ∧
      s'.cells = Function.update s.cells k (p.update i (s.cells k)) ∧
      s'.calls i = .running (results ++ [p.result i (s.cells k)]) none ∧
      ∀ j, j ≠ i → s'.calls j = s.calls j := by
  have hload : Next p s (s.move i (.running results (some (s.cells k)))) :=
    ⟨none, .load _ hcall (List.getElem?_eq_some_iff.mp hsite).1⟩
  have hheld : (s.move i (.running results (some (s.cells k)))).calls i =
      .running results (some (s.cells k)) := by rw [s.move_calls, if_pos rfl]
  refine ⟨_, .tail (.single hload) ⟨some (i, k), .exchange hheld hsite⟩, rfl, ?_, ?_⟩
  · rw [p.exchange_calls, if_pos rfl]
    rfl
  · intro j hj
    rw [p.exchange_calls, if_neg hj, s.move_calls, if_neg hj]

theorem run_visits {sites : List κ} {results : List β}
    (hcall : s.calls i = .running results none) (hsites : (p.sites i).drop results.length = sites) :
    ∃ s', Relation.ReflTransGen (Next p) s s' ∧ s'.cells = (p.pass i sites s.cells).2 ∧
      s'.calls i = .running (results ++ (p.pass i sites s.cells).1) none ∧
      ∀ j, j ≠ i → s'.calls j = s.calls j := by
  induction sites generalizing s results with
  | nil => exact ⟨s, .refl, rfl, by simpa [Program.pass] using hcall, fun _ _ => rfl⟩
  | cons k sites ih =>
    have hsite : (p.sites i)[results.length]? = some k := by
      rw [← List.head?_drop, hsites, List.head?_cons]
    obtain ⟨s₁, hrun₁, hcells₁, hcall₁, hothers₁⟩ := run_visit hcall hsite
    have hdrop : (p.sites i).drop (results ++ [p.result i (s.cells k)]).length = sites := by
      rw [List.length_append, List.length_singleton, ← List.drop_drop, hsites, List.drop_one,
        List.tail_cons]
    obtain ⟨s₂, hrun₂, hcells₂, hcall₂, hothers₂⟩ := ih hcall₁ hdrop
    rw [hcells₁] at hcells₂ hcall₂
    refine ⟨s₂, hrun₁.trans hrun₂, hcells₂, ?_, ?_⟩
    · rw [hcall₂, List.append_assoc]
      rfl
    · intro j hj
      rw [hothers₂ j hj, hothers₁ j hj]

omit [DecidableEq ι] in
theorem Program.length_pass (p : Program ι κ α β) (i : ι) (sites : List κ) (cells : κ → α) :
    (p.pass i sites cells).1.length = sites.length := by
  induction sites generalizing cells with
  | nil => rfl
  | cons k sites ih => exact congrArg Nat.succ (ih _)

/-- An idle call can run to its end without an interruption. -/
theorem run_pass (hidle : s.calls i = .idle) :
    ∃ s', Relation.ReflTransGen (Next p) s s' ∧ s'.cells = (p.pass i (p.sites i) s.cells).2 ∧
      s'.calls i = .returned (p.pass i (p.sites i) s.cells).1 ∧
      ∀ j, j ≠ i → s'.calls j = s.calls j := by
  have hstart : Next p s (s.move i (.running [] none)) := ⟨none, .start hidle⟩
  have hcall : (s.move i (.running [] none)).calls i = .running [] none := by
    rw [s.move_calls, if_pos rfl]
  obtain ⟨s₁, hrun, hcells, hcall₁, hothers⟩ := run_visits hcall (List.drop_zero (l := p.sites i))
  have hfinish : Next p s₁ (s₁.move i (.returned (p.pass i (p.sites i) s.cells).1)) :=
    ⟨none, .finish hcall₁ (p.length_pass i _ _)⟩
  refine ⟨_, (Relation.ReflTransGen.head hstart hrun).tail hfinish, hcells, ?_, ?_⟩
  · rw [s₁.move_calls, if_pos rfl]
  · intro j hj
    rw [s₁.move_calls, if_neg hj, hothers j hj, s.move_calls, if_neg hj]

/-! ### Drawing numbers -/

theorem Drew.of_silent {result : β} {r : Nat} (h : Step p none s s')
    (hdrew : Drew p s' k result i r) : Drew p s k result i r := by
  refine ⟨hdrew.site, ?_⟩
  rw [← h.silent.2 i]
  exact hdrew.kept

/-- After an exchange a call has drawn what it had drawn before, or it is the call that
exchanged and this is what it drew. -/
theorem Drew.of_exchange {results : List β} {held : Option α} {k' : κ} {result : β} {r : Nat}
    (hcall : s.calls i = .running results held) (hsite : (p.sites i)[results.length]? = some k)
    (h : Drew p (p.exchange s i k results) k' result j r) :
    Drew p s k' result j r ∨
      j = i ∧ r = results.length ∧ k' = k ∧ result = p.result i (s.cells k) := by
  obtain ⟨hat, hkept⟩ := h
  rw [p.exchange_calls] at hkept
  split at hkept
  · next hj =>
    subst hj
    rcases Nat.lt_trichotomy r results.length with hlt | rfl | hgt
    · left
      refine ⟨hat, ?_⟩
      rw [hcall]
      simpa only [Call.results, List.getElem?_append_left hlt] using hkept
    · right
      rw [hsite] at hat
      simp only [Call.results, List.getElem?_concat_length, Option.some.injEq] at hkept hat
      exact ⟨rfl, rfl, hat.symm, hkept.symm⟩
    · rw [Call.results, List.getElem?_eq_none (by simp; omega)] at hkept
      cases hkept
  · exact .inl ⟨hat, hkept⟩

section

variable {p : Program ι κ α Nat} {inv : α → Prop} {number : α → Nat} {top : Nat}
  {s s' : Shared ι κ α Nat}

theorem Numbered.le_exchange (hp : Numbered p inv number top) (hs : ∀ k, inv (s.cells k)) (i : ι)
    (k k' : κ) (results : List Nat) :
    number (s.cells k') ≤ number ((p.exchange s i k results).cells k') := by
  rw [p.exchange_cells]
  split
  · next hk => rw [hk]; exact hp.le_update i (hs k)
  · exact Nat.le_refl _

namespace Drawn

theorem silent (h : Drawn p inv number top s) (hstep : Step p none s s')
    (hreturned : ∀ {i results}, s'.calls i = .returned results →
      results.length = (p.sites i).length) : Drawn p inv number top s' where
  inv := by
    rw [hstep.silent.1]
    exact h.inv
  bound hdrew := by
    rw [hstep.silent.1]
    exact h.bound (hdrew.of_silent hstep)
  once hdrew hdrew' := h.once (hdrew.of_silent hstep) (hdrew'.of_silent hstep)
  returned := hreturned

theorem exchange (hp : Numbered p inv number top) (h : Drawn p inv number top s)
    {held : Option α} {results : List Nat} (hcall : s.calls i = .running results held)
    (hsite : (p.sites i)[results.length]? = some k) :
    Drawn p inv number top (p.exchange s i k results) := by
  have hdrawn : p.result i (s.cells k) = number (p.update i (s.cells k)) := by
    rw [hp.result i _ (h.inv k), hp.update i _ (h.inv k)]
  -- what is drawn now was not drawn before, unless the numbers have run out
  have hnew {n j q} (hdrew : Drew p s k n j q) (hn : n = p.result i (s.cells k)) : n = top := by
    have hle := (h.bound hdrew).2
    have htop := hp.le_top _ (h.inv k)
    rw [hp.result i _ (h.inv k)] at hn
    omega
  constructor
  case inv =>
    intro k'
    rw [p.exchange_cells]
    split
    · exact hp.keeps i _ (h.inv k)
    · exact h.inv k'
  case bound =>
    intro k' n j r hdrew
    rcases hdrew.of_exchange hcall hsite with hold | ⟨-, -, rfl, rfl⟩
    · obtain ⟨hpos, hle⟩ := h.bound hold
      exact ⟨hpos, Nat.le_trans hle (hp.le_exchange h.inv i k k' results)⟩
    · rw [p.exchange_cells, if_pos rfl, ← hdrawn]
      refine ⟨?_, Nat.le_refl _⟩
      have := hp.top_pos
      rw [hp.result i _ (h.inv k')]
      omega
  case once =>
    intro k' n j j' r q hdrew hdrew'
    rcases hdrew.of_exchange hcall hsite with hold | ⟨rfl, rfl, rfl, hn⟩
    · rcases hdrew'.of_exchange hcall hsite with hold' | ⟨rfl, rfl, rfl, hn⟩
      · exact h.once hold hold'
      · exact .inr (hnew hold hn)
    · rcases hdrew'.of_exchange hcall hsite with hold' | ⟨rfl, rfl, -, -⟩
      · exact .inr (hnew hold' hn)
      · exact .inl ⟨rfl, rfl⟩
  case returned =>
    intro j results' hj
    rw [p.exchange_calls] at hj
    split at hj
    · cases hj
    · exact h.returned hj

theorem step (hp : Numbered p inv number top) (h : Drawn p inv number top s)
    (hstep : Next p s s') : Drawn p inv number top s' := by
  -- a call that moves on without returning leaves the returned ones
  have hmove {i : ι} {call : Call α Nat}
      (hcall : ∀ results, call = .returned results → results.length = (p.sites i).length)
      {j : ι} {results : List Nat} (hj : (s.move i call).calls j = .returned results) :
      results.length = (p.sites j).length := by
    rw [s.move_calls] at hj
    split at hj
    · next hji => rw [hji]; exact hcall results hj
    · exact h.returned hj
  obtain ⟨label, hstep⟩ := hstep
  cases hstep with
  | start hcall =>
    refine h.silent (.start hcall) (hmove ?_)
    nofun
  | load v hcall hsite =>
    refine h.silent (.load v hcall hsite) (hmove ?_)
    nofun
  | exchange hcall hsite => exact h.exchange hp hcall hsite
  | finish hcall hdone =>
    refine h.silent (.finish hcall hdone) (hmove ?_)
    rintro _ ⟨⟩
    exact hdone

theorem run (hp : Numbered p inv number top) (h : Drawn p inv number top s)
    (hrun : Relation.ReflTransGen (Next p) s s') : Drawn p inv number top s' := by
  induction hrun with
  | refl => exact h
  | tail _ hstep ih => exact ih.step hp hstep

omit [DecidableEq κ] in
/-- At most `L` numbers up to `L` are drawn from each of the cells of a call. -/
theorem card_le (h : Drawn p inv number top s) {sites : List κ} {S : Finset ι} {L : Nat}
    (hL : L < top) (hsites : ∀ i ∈ S, p.sites i = sites)
    (hsmall : ∀ i ∈ S, ∃ r n, n ≤ L ∧ r < sites.length ∧ (s.calls i).results[r]? = some n) :
    S.card ≤ sites.length * L := by
  have hdrew : ∀ i ∈ S, ∃ rn : Nat × Nat, rn.2 ≤ L ∧ ∃ k, sites[rn.1]? = some k ∧
      Drew p s k rn.2 i rn.1 := by
    intro i hi
    obtain ⟨r, n, hn, hr, hkept⟩ := hsmall i hi
    refine ⟨(r, n), hn, sites[r], List.getElem?_eq_getElem hr, ?_, hkept⟩
    rw [hsites i hi]
    exact List.getElem?_eq_getElem hr
  choose! draw hdraw using hdrew
  have hcard := Finset.card_le_card_of_injOn (s := S) (t := Finset.range sites.length ×ˢ Finset.Icc 1 L)
    draw ?maps ?inj
  case maps =>
    intro i hi
    obtain ⟨hle, k, hk, hi⟩ := hdraw i hi
    have hr := (List.getElem?_eq_some_iff.mp hk).1
    have hpos := (h.bound hi).1
    simp only [Finset.coe_product, Set.mem_prod, Finset.mem_coe, Finset.mem_range, Finset.mem_Icc]
    exact ⟨hr, hpos, hle⟩
  case inj =>
    intro i hi j hj heq
    obtain ⟨hle, k, hk, hi⟩ := hdraw i hi
    obtain ⟨-, k', hk', hj⟩ := hdraw j hj
    rw [← heq, hk] at hk'
    cases hk'
    rw [← heq] at hj
    rcases h.once hi hj with ⟨hij, -⟩ | htop
    · exact hij
    · omega
  simpa using hcard

omit [DecidableEq ι] [DecidableEq κ] in
/-- A cell has numbered every call that visited it. -/
theorem le_number (h : Drawn p inv number top s) {S : Finset ι} {r : Nat}
    (hS : ∀ i ∈ S, ∃ n, Drew p s k n i r) : min S.card top ≤ number (s.cells k) := by
  choose! draw hdraw using hS
  by_cases htop : ∃ i ∈ S, draw i = top
  · obtain ⟨i, hi, hn⟩ := htop
    have hle := (h.bound (hdraw i hi)).2
    omega
  · have hcard := Finset.card_le_card_of_injOn (s := S) (t := Finset.Icc 1 (number (s.cells k)))
      draw ?maps ?inj
    case maps =>
      intro i hi
      exact Finset.mem_coe.mpr (Finset.mem_Icc.mpr (h.bound (hdraw i hi)))
    case inj =>
      intro i hi j hj heq
      have hi' := hdraw i hi
      rw [heq] at hi'
      rcases h.once hi' (hdraw j hj) with ⟨hij, -⟩ | hn
      · exact hij
      · exact absurd ⟨j, hj, hn⟩ htop
    rw [Nat.card_Icc] at hcard
    omega

/-- A call that starts now draws more than the number a cell shows now. -/
theorem le_result (hp : Numbered p inv number top) (h : Drawn p inv number top s)
    (hidle : (s.calls j).results = []) (hrun : Relation.ReflTransGen (Next p) s s')
    {n r : Nat} (hdrew : Drew p s' k n j r) : min (number (s.cells k) + 1) top ≤ n := by
  have hlater : (∀ k, number (s.cells k) ≤ number (s'.cells k)) ∧
      ∀ {k n r}, Drew p s' k n j r → min (number (s.cells k) + 1) top ≤ n := by
    clear hdrew
    induction hrun with
    | refl =>
      refine ⟨fun k => Nat.le_refl _, ?_⟩
      intro k n r hdrew
      have hkept := hdrew.kept
      rw [hidle] at hkept
      cases hkept
    | tail hrun hstep ih =>
      have hnow := h.run hp hrun
      obtain ⟨hle, hdrew⟩ := ih
      obtain ⟨label, hstep⟩ := hstep
      cases label with
      | none =>
        rw [hstep.silent.1]
        exact ⟨hle, fun h => hdrew (h.of_silent hstep)⟩
      | some at' =>
        cases hstep with
        | exchange hcall hsite =>
          constructor
          · intro k'
            exact Nat.le_trans (hle k') (hp.le_exchange hnow.inv _ _ k' _)
          · intro k' n r hlast
            rcases hlast.of_exchange hcall hsite with hold | ⟨-, -, rfl, rfl⟩
            · exact hdrew hold
            · have := hle k'
              rw [hp.result _ _ (hnow.inv k')]
              omega
  exact hlater.2 hdrew

end Drawn

end

end BoringTun.Tickets

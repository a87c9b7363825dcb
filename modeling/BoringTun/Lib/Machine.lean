import Mathlib.Logic.Relation

/-!
Labelled machines: finite runs that only take some of the labels, runs with the labels
they took, states reachable from an initial one, and the invariant rules for each.
-/

namespace BoringTun

variable {σ L : Type*}

/-- Some number of steps, all with labels in `allowed`. -/
def Steps (step : L → σ → σ → Prop) (allowed : L → Prop) : σ → σ → Prop :=
  Relation.ReflTransGen fun s s' => ∃ label, allowed label ∧ step label s s'

namespace Steps

variable {step : L → σ → σ → Prop} {allowed allowed' : L → Prop} {s s' s'' : σ}

theorem refl (s : σ) : Steps step allowed s s := Relation.ReflTransGen.refl

theorem single {label : L} (h : step label s s') (hallowed : allowed label) :
    Steps step allowed s s' :=
  Relation.ReflTransGen.single ⟨label, hallowed, h⟩

theorem trans (h : Steps step allowed s s') (h' : Steps step allowed s' s'') :
    Steps step allowed s s'' :=
  Relation.ReflTransGen.trans h h'

theorem mono (hle : ∀ label, allowed label → allowed' label) (h : Steps step allowed s s') :
    Steps step allowed' s s' :=
  Relation.ReflTransGen.mono
    (fun _ _ ⟨label, hallowed, hstep⟩ => ⟨label, hle label hallowed, hstep⟩) _ _ h

theorem tail {label : L} (h : Steps step allowed s s') (hlast : step label s' s'')
    (hallowed : allowed label) : Steps step allowed s s'' :=
  h.trans (.single hlast hallowed)

/-- What every allowed step keeps, a run keeps. -/
theorem invariant {inv : σ → Prop} (h : Steps step allowed s s')
    (hstep : ∀ label s s', allowed label → step label s s' → inv s → inv s') (hs : inv s) :
    inv s' := by
  induction h with
  | refl => exact hs
  | tail _ last ih =>
    obtain ⟨label, hallowed, hlast⟩ := last
    exact hstep label _ _ hallowed hlast ih

end Steps

/-- A run with the labels it took, in order. -/
inductive Trace (step : L → σ → σ → Prop) : σ → List L → σ → Prop where
  | nil (s : σ) : Trace step s [] s
  | cons {label : L} {labels : List L} {s s' s'' : σ} (h : step label s s')
    (hrest : Trace step s' labels s'') : Trace step s (label :: labels) s''

namespace Trace

variable {step : L → σ → σ → Prop} {allowed : L → Prop} {labels labels' : List L} {s s' s'' : σ}

theorem single {label : L} (h : step label s s') : Trace step s [label] s' := .cons h (.nil s')

theorem append (h : Trace step s labels s') (h' : Trace step s' labels' s'') :
    Trace step s (labels ++ labels') s'' := by
  induction h with
  | nil => exact h'
  | cons hstep _ ih => exact .cons hstep (ih h')

/-- A run of one machine is one of another that takes its steps under other labels. -/
theorem map {L' : Type*} {step' : L' → σ → σ → Prop} (f : L → L') (h : Trace step s labels s')
    (hstep : ∀ label s s', step label s s' → step' (f label) s s') :
    Trace step' s (labels.map f) s' := by
  induction h with
  | nil => exact .nil _
  | cons hfirst _ ih => exact .cons (hstep _ _ _ hfirst) ih

/-- A run takes some labels, all of them allowed. -/
theorem of_steps (h : Steps step allowed s s') :
    ∃ labels, (∀ label ∈ labels, allowed label) ∧ Trace step s labels s' := by
  induction h with
  | refl => exact ⟨[], nofun, .nil _⟩
  | tail _ last ih =>
    obtain ⟨labels, hallowed, htrace⟩ := ih
    obtain ⟨label, hlabel, hlast⟩ := last
    refine ⟨labels ++ [label], ?_, htrace.append (.single hlast)⟩
    intro other hmem
    rcases List.mem_append.mp hmem with hmem | hmem
    · exact hallowed other hmem
    · rw [List.mem_singleton.mp hmem]
      exact hlabel

/-- A relation between states and an account of the labels so far, kept by every step
that is entered in the account, is kept by a run. -/
theorem account {γ : Type*} {enter : γ → L → γ} {inv : σ → γ → Prop} {account : γ}
    (h : Trace step s labels s')
    (hstep : ∀ label s s' account, step label s s' → inv s account → inv s' (enter account label))
    (hs : inv s account) : inv s' (labels.foldl enter account) := by
  induction h generalizing account with
  | nil => exact hs
  | cons hfirst _ ih => exact ih (hstep _ _ _ _ hfirst hs)

end Trace

/-- The states a machine reaches from its initial ones. -/
def Reachable (init : σ → Prop) (next : σ → σ → Prop) (s : σ) : Prop :=
  ∃ s₀, init s₀ ∧ Relation.ReflTransGen next s₀ s

namespace Reachable

variable {init : σ → Prop} {next : σ → σ → Prop} {s s' : σ}

theorem base (h : init s) : Reachable init next s := ⟨s, h, .refl⟩

theorem step (h : Reachable init next s) (hnext : next s s') : Reachable init next s' := by
  obtain ⟨s₀, hinit, hrun⟩ := h
  exact ⟨s₀, hinit, hrun.tail hnext⟩

/-- What holds at the start and is kept by every step holds in every state reached. -/
theorem invariant (h : Reachable init next s) (inv : σ → Prop) (hinit : ∀ s, init s → inv s)
    (hnext : ∀ s s', next s s' → inv s → inv s') : inv s := by
  obtain ⟨s₀, hs₀, hrun⟩ := h
  induction hrun with
  | refl => exact hinit s₀ hs₀
  | tail _ last ih => exact hnext _ _ last ih

end Reachable

/-! ### Histories -/

/-- Every entry of a history, newest first, stands in `r` to those before it. -/
def Justified {α : Type*} (r : List α → α → Prop) : List α → Prop
  | [] => True
  | entry :: older => r older entry ∧ Justified r older

theorem Justified.at {α : Type*} {r : List α → α → Prop} {newer older : List α} {entry : α}
    (h : Justified r (newer ++ entry :: older)) : r older entry := by
  induction newer with
  | nil => exact h.1
  | cons _ _ ih => exact ih h.2

end BoringTun

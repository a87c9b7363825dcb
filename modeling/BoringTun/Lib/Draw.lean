import BoringTun.Lib.WordStream

/-!
Programs that draw from one generator and build a value.

`Draw.Yields prog post` says that whatever the generator, the value satisfies `post`.
There is one rule for each way to build a program, so that what holds of every draw is
shown along the text of the program.
-/

namespace BoringTun

abbrev Draw := StateM Rng

namespace Draw

variable {α β : Type}

def word : Draw Nat := Rng.nextU32

def word64 : Draw Nat := Rng.nextU64

def bytes (n : Nat) : Draw Bytes := Rng.bytes n

/-- One entry of a table; the fallback stands for an empty one. -/
def oneOf (table : List α) (fallback : α) : Draw α := do
  let word ← word
  return table.getD (word % table.length) fallback

/-- `n` draws of one program, in order. -/
def times (n : Nat) (prog : Draw α) : Draw (List α) := (List.replicate n prog).mapM id

/-- Fisher-Yates from the back, one 64-bit word for each place but the first. -/
def shuffleFrom : Nat → Array α → Draw (Array α)
  | 0, items | 1, items => return items
  | i + 2, items => do
    let word ← word64
    shuffleFrom (i + 1) (items.swapIfInBounds (i + 1) (word % (i + 2)))

def shuffle (items : List α) : Draw (List α) := do
  let shuffled ← shuffleFrom items.length items.toArray
  return shuffled.toList

def Yields (prog : Draw α) (post : α → Prop) : Prop := ∀ rng, post (prog rng).1

namespace Yields

variable {prog : Draw α} {post : α → Prop}

theorem pure {a : α} (h : post a) : Yields (Pure.pure a) post := fun _ => h

theorem bind {rest : α → Draw β} {post' : β → Prop} (h : Yields prog post)
    (hrest : ∀ a, post a → Yields (rest a) post') : Yields (prog >>= rest) post' :=
  fun rng => hrest _ (h rng) (prog rng).2

/-- What a program ends in decides what it yields. -/
theorem last {rest : α → Draw β} {post' : β → Prop} (hrest : ∀ a, Yields (rest a) post') :
    Yields (prog >>= rest) post' :=
  fun rng => hrest _ (prog rng).2

theorem oneOf {table : List α} {fallback : α} (hne : table ≠ []) (h : ∀ a ∈ table, post a) :
    Yields (oneOf table fallback) post := by
  refine .last fun word => .pure ?_
  have hlt : word % table.length < table.length :=
    Nat.mod_lt _ (List.length_pos_iff.mpr hne)
  rw [List.getD_eq_getElem?_getD, List.getElem?_eq_getElem hlt]
  exact h _ (List.getElem_mem hlt)

theorem bytes_length (n : Nat) : Yields (bytes n) fun drawn => drawn.length = n :=
  fun rng => Rng.length_bytes n rng

theorem mapM {step : α → Draw β} {post' : β → Prop} (items : List α)
    (hstep : ∀ a ∈ items, Yields (step a) post') :
    Yields (items.mapM step) fun built => ∀ b ∈ built, post' b := by
  induction items with
  | nil => exact .pure (by simp)
  | cons a items ih =>
    rw [List.mapM_cons]
    refine .bind (hstep a (by simp)) fun b hb => ?_
    refine .bind (ih fun a' ha' => hstep a' (by simp [ha'])) fun built hbuilt => .pure ?_
    intro b' hb'
    rcases List.mem_cons.mp hb' with rfl | hb'
    · exact hb
    · exact hbuilt b' hb'

theorem mapM_length (step : α → Draw β) (items : List α) :
    Yields (items.mapM step) fun built => built.length = items.length := by
  induction items with
  | nil => exact .pure rfl
  | cons a items ih =>
    rw [List.mapM_cons]
    exact .last fun b => .bind ih fun built hbuilt => .pure (congrArg (· + 1) hbuilt)

theorem times (h : Yields prog post) (n : Nat) :
    Yields (times n prog) fun drawn => drawn.length = n ∧ ∀ b ∈ drawn, post b := by
  intro rng
  have hlength := mapM_length id (List.replicate n prog) rng
  rw [List.length_replicate] at hlength
  refine ⟨hlength, mapM (List.replicate n prog) (fun step hstep => ?_) rng⟩
  obtain rfl := List.eq_of_mem_replicate hstep
  exact h

end Yields

end Draw

end BoringTun

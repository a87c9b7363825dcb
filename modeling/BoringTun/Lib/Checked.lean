import BoringTun.Lib.WordStream

/-!
Programs that may panic: a computation is an `Option`, `none` is the panic.

`Returns run post` is total correctness: the computation returns, with a result that
satisfies `post`. `Filler` is the language of functions that write by index into one
slice and draw from one generator; `Filler.Keeps` is total correctness there, for a
slice of a given length.

`Filler.Yields` follows what of the slice is known: the bytes a program has written so
far, from the start on. It has one rule for each way to build a program, and gives the
bytes a program leaves and that they do not depend on what the slice held before.
-/

namespace BoringTun

def Returns {α : Type} (run : Option α) (post : α → Prop) : Prop :=
  ∃ a, run = some a ∧ post a

theorem Returns.isSome {α : Type} {run : Option α} {post : α → Prop} (h : Returns run post) :
    run.isSome := by
  obtain ⟨a, rfl, -⟩ := h
  rfl

theorem Returns.get_spec {α : Type} {run : Option α} {post : α → Prop} (h : Returns run post) :
    post (run.get h.isSome) := by
  obtain ⟨a, rfl, ha⟩ := h
  exact ha

/-- A program over a slice and a generator. -/
abbrev Filler (α : Type) := StateT (Bytes × Rng) Option α

namespace Filler

variable {α β : Type} {n : Nat}

def size : Filler Nat := fun (dst, rng) => some (dst.length, dst, rng)

def word : Filler Nat := fun (dst, rng) => some (rng.nextU32.1, dst, rng.nextU32.2)

/-- `dst[pos..pos + new.len()].copy_from_slice(new)`. -/
def write (pos : Nat) (new : Bytes) : Filler Unit := fun (dst, rng) =>
  if pos + new.length ≤ dst.length then some ((), overwrite dst pos new, rng) else none

/-- `a - b` on unsigned integers. -/
def sub (a b : Nat) : Filler Nat := fun state => if b ≤ a then some (a - b, state) else none

def guarded (test : Prop) [Decidable test] (prog : Filler Unit) : Filler Unit :=
  if test then prog else pure ()

/-- `n` words, each cut to a byte. -/
def randomBytes : Nat → Filler Bytes
  | 0 => pure []
  | n + 1 => do
    let byte ← word
    let rest ← randomBytes n
    return UInt8.ofNat byte :: rest

/-- On a slice of `n` bytes the program returns, keeps the length, and its value
satisfies `post`. -/
def Keeps (n : Nat) (prog : Filler α) (post : α → Prop) : Prop :=
  ∀ state : Bytes × Rng, state.1.length = n →
    Returns (prog state) fun result => result.2.1.length = n ∧ post result.1

/-- On a slice of `n` bytes that starts with `known`, the program returns whatever the rest of
the slice holds: a value, a generator and a longer known start that do not depend on that
rest, which stays as it was. The three satisfy `post`. -/
def Yields (n : Nat) (known : Bytes) (rng : Rng) (prog : Filler α)
    (post : α → Bytes → Rng → Prop) : Prop :=
  known.length ≤ n → ∃ a known' rng', post a known' rng' ∧ known.length ≤ known'.length ∧
    known'.length ≤ n ∧ ∀ rest, (known ++ rest).length = n →
      prog (known ++ rest, rng) =
        some (a, known' ++ rest.drop (known'.length - known.length), rng')

/-- Every byte of the slice is known. -/
abbrev Whole (n : Nat) : α → Bytes → Rng → Prop := fun _ known _ => known.length = n

namespace Yields

variable {prog : Filler α} {post : α → Bytes → Rng → Prop} {known : Bytes} {rng : Rng}

theorem pure {a : α} (h : post a known rng) : Yields n known rng (Pure.pure a) post := by
  intro hle
  refine ⟨a, known, rng, h, Nat.le_refl _, hle, fun rest _ => ?_⟩
  rw [Nat.sub_self, List.drop_zero]
  rfl

theorem bind {rest : α → Filler β} {post' : β → Bytes → Rng → Prop}
    (h : Yields n known rng prog post)
    (hrest : ∀ a known' rng', post a known' rng' → Yields n known' rng' (rest a) post') :
    Yields n known rng (prog >>= rest) post' := by
  intro hle
  obtain ⟨a, known₁, rng₁, ha, hle₁, hn₁, hrun⟩ := h hle
  obtain ⟨b, known₂, rng₂, hb, hle₂, hn₂, hrun'⟩ := hrest a known₁ rng₁ ha hn₁
  refine ⟨b, known₂, rng₂, hb, Nat.le_trans hle₁ hle₂, hn₂, fun back hback => ?_⟩
  have hlen : (known₁ ++ back.drop (known₁.length - known.length)).length = n := by
    rw [List.length_append] at hback
    rw [List.length_append, List.length_drop]
    omega
  have hsum : known₁.length - known.length + (known₂.length - known₁.length) =
      known₂.length - known.length := by
    omega
  calc (prog >>= rest) (known ++ back, rng)
      = (prog (known ++ back, rng)).bind fun (a, state') => rest a state' := rfl
    _ = rest a (known₁ ++ back.drop (known₁.length - known.length), rng₁) := by
      rw [hrun back hback, Option.bind_some]
    _ = some (b, known₂ ++ back.drop (known₂.length - known.length), rng₂) := by
      rw [hrun' _ hlen, List.drop_drop, hsum]

theorem mono {post' : α → Bytes → Rng → Prop} (h : Yields n known rng prog post)
    (himp : ∀ a known' rng', post a known' rng' → post' a known' rng') :
    Yields n known rng prog post' := by
  intro hle
  obtain ⟨a, known', rng', ha, hrun⟩ := h hle
  exact ⟨a, known', rng', himp _ _ _ ha, hrun⟩

theorem ite {test : Prop} [Decidable test] {other : Filler α}
    (hpos : test → Yields n known rng prog post) (hneg : ¬ test → Yields n known rng other post) :
    Yields n known rng (if test then prog else other) post := by
  by_cases htest : test
  · rw [if_pos htest]
    exact hpos htest
  · rw [if_neg htest]
    exact hneg htest

theorem guarded {test : Prop} [Decidable test] {prog : Filler Unit}
    {post : Unit → Bytes → Rng → Prop} (hpos : test → Yields n known rng prog post)
    (hneg : ¬ test → post () known rng) : Yields n known rng (Filler.guarded test prog) post :=
  .ite hpos fun htest => .pure (hneg htest)

theorem size : Yields n known rng Filler.size fun a known' _ => a = n ∧ known' = known := by
  intro hle
  refine ⟨n, known, rng, ⟨rfl, rfl⟩, Nat.le_refl _, hle, fun rest hrest => ?_⟩
  rw [Nat.sub_self, List.drop_zero, ← hrest]
  rfl

theorem word : Yields n known rng Filler.word fun _ known' _ => known' = known := by
  intro hle
  refine ⟨rng.nextU32.1, known, rng.nextU32.2, rfl, Nat.le_refl _, hle, fun rest _ => ?_⟩
  rw [Nat.sub_self, List.drop_zero]
  rfl

/-- A write that starts within the known bytes, or right behind them. -/
theorem write {pos : Nat} {new : Bytes} (hpos : pos ≤ known.length) (h : pos + new.length ≤ n) :
    Yields n known rng (Filler.write pos new) fun _ known' _ =>
      known' = overwrite known pos new ∧ known'.length = max known.length (pos + new.length) := by
  intro hle
  have hlen := length_overwrite_max new hpos
  refine ⟨(), overwrite known pos new, rng, ⟨rfl, hlen⟩, by omega, by omega, fun rest hrest => ?_⟩
  rw [← overwrite_append_left _ _ hpos]
  exact if_pos (hrest.symm ▸ h)

theorem writeWhole {pos : Nat} {new : Bytes} (hwhole : known.length = n)
    (h : pos + new.length ≤ n) : Yields n known rng (Filler.write pos new) (Whole n) := by
  refine (Yields.write (by omega) h).mono fun _ known' _ hknown => ?_
  obtain ⟨-, hlen⟩ := hknown
  omega

theorem guardedWhole {test : Prop} [Decidable test] {prog : Filler Unit}
    (hwhole : known.length = n) (h : test → Yields n known rng prog (Whole n)) :
    Yields n known rng (Filler.guarded test prog) (Whole n) :=
  .guarded h fun _ => hwhole

theorem append {pos : Nat} {new : Bytes} (hpos : pos = known.length) (h : pos + new.length ≤ n) :
    Yields n known rng (Filler.write pos new) fun _ known' _ => known' = known ++ new := by
  subst hpos
  refine (Yields.write (Nat.le_refl _) h).mono fun _ known' _ hknown => ?_
  rw [hknown.1, overwrite_length]

theorem sub {a b : Nat} (h : b ≤ a) :
    Yields n known rng (Filler.sub a b) fun c known' _ => c = a - b ∧ known' = known := by
  intro hle
  refine ⟨a - b, known, rng, ⟨rfl, rfl⟩, Nat.le_refl _, hle, fun rest _ => ?_⟩
  rw [Nat.sub_self, List.drop_zero]
  exact if_pos h

theorem randomBytes (count : Nat) : Yields n known rng (Filler.randomBytes count)
    fun run known' _ => run.length = count ∧ known' = known := by
  induction count generalizing rng with
  | zero => exact .pure ⟨rfl, rfl⟩
  | succ count ih =>
    refine .bind .word ?_
    rintro byte _ rng₁ rfl
    refine .bind ih ?_
    rintro run _ rng₂ ⟨hrun, rfl⟩
    exact .pure ⟨by simp [hrun], rfl⟩

/-- What a program yields from nothing known, it yields over known bytes: it overwrites them. -/
theorem forget (h : Yields n [] rng prog post) :
    Yields n known rng prog fun a known' rng' =>
      ∃ written, post a written rng' ∧ known' = written ++ known.drop written.length := by
  intro hle
  obtain ⟨a, written, rng', ha, -, hn, hrun⟩ := h (Nat.zero_le n)
  refine ⟨a, written ++ known.drop written.length, rng', ⟨written, ha, rfl⟩, ?_, ?_, ?_⟩
  · rw [List.length_append, List.length_drop]
    omega
  · rw [List.length_append, List.length_drop]
    omega
  · intro rest hrest
    have hrun' := hrun (known ++ rest) hrest
    rw [List.nil_append, List.length_nil, Nat.sub_zero, List.drop_append] at hrun'
    have hback : written.length + (known.length - written.length) - known.length =
        written.length - known.length := by
      omega
    rw [hrun', List.append_assoc, List.length_append, List.length_drop, hback]

/-- A program that yields from nothing known runs on every slice. -/
theorem keeps {post : Rng → α → Bytes → Rng → Prop} (h : ∀ rng, Yields n [] rng prog (post rng)) :
    Keeps n prog fun _ => True := by
  rintro ⟨dst, rng⟩ hn
  obtain ⟨a, known, rng', -, -, hle, hrun⟩ := h rng (Nat.zero_le n)
  refine ⟨_, hrun dst hn, ?_, trivial⟩
  simp only [List.length_append, List.length_drop, List.length_nil] at hn ⊢
  omega

end Yields

/-- Run a program that keeps every slice. -/
def exec (prog : Filler Unit) (h : ∀ n, Keeps n prog fun _ => True) (dst : Bytes) (rng : Rng) :
    Bytes × Rng :=
  ((prog (dst, rng)).get (h dst.length (dst, rng) rfl).isSome).2

/-- What a program that yields from nothing known leaves: its bytes, and behind them the
slice's own. -/
theorem exec_yields {prog : Filler Unit} {post : Unit → Bytes → Rng → Prop} {rng : Rng}
    (hprog : Yields n [] rng prog post) (h : ∀ n, Keeps n prog fun _ => True) :
    ∃ written rng', post () written rng' ∧ written.length ≤ n ∧ ∀ dst : Bytes, dst.length = n →
      exec prog h dst rng = (written ++ dst.drop written.length, rng') := by
  obtain ⟨_, written, rng', hpost, -, hle, hrun⟩ := hprog (Nat.zero_le n)
  refine ⟨written, rng', hpost, hle, fun dst hdst => ?_⟩
  have hdst' := hrun dst hdst
  rw [List.nil_append, List.length_nil, Nat.sub_zero] at hdst'
  simp only [exec, hdst', Option.get_some]

@[simp] theorem length_exec (prog : Filler Unit) (h : ∀ n, Keeps n prog fun _ => True)
    (dst : Bytes) (rng : Rng) : (exec prog h dst rng).1.length = dst.length :=
  (h dst.length (dst, rng) rfl).get_spec.1

end Filler

end BoringTun

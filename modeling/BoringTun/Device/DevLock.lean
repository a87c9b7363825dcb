import BoringTun.Lib.Machine
import Mathlib.Logic.Function.Basic

/-!
The lock of the device (`device/dev_lock.rs`): readers keep their guards, and a reader upgrades its
own to write once, having asked the others to let go of theirs.

A thread is its program counter; the flag, the condition variable and the two locks are what the
counters hold of them. `Step` is one operation of one thread on one of these. The mutex, the
condition variable and the reader-writer lock are those of `parking_lot`: a wait releases the mutex
and parks in one operation, nobody wakes unless notified, and a reader may have to let a waiting
writer go first (`fair`).
-/

namespace BoringTun.DevLock

/-- Where a thread stands. A guard is held from `holding` on, and across an upgrade. -/
inductive Pc (T : Type*) where
  | outside
  -- `read`
  | readLocking
  | readChecking
  | readWaiting
  | readWaking
  | readAcquiring
  | readReturning
  | holding
  -- `try_writeable`, until the intent is raised
  | writeLocking
  | writeUnlocking
  | writeChecking
  | writeWaiting
  | writeWaking
  | raised
  | reacquiring
  /-- In `prep_func`, on the value `seen`. -/
  | preparing (seen : T)
  | prepared (seen : T)
  | acquiring (seen : T)
  /-- In `mut_func`, which was passed `given`. -/
  | mutating (seen given : T)
  | mutated
  | restoring
  -- the intent is dropped
  | lowering
  | lowerLocked
  | notifying
  | lowered

namespace Pc

variable {T : Type*}

def holdsMutex : Pc T → Bool
  | readChecking | readAcquiring | readReturning | writeUnlocking | writeChecking | raised
  | lowerLocked | notifying | lowered => true
  | _ => false

def wantsMutex : Pc T → Bool
  | readLocking | readWaking | writeLocking | writeWaking | lowering => true
  | _ => false

/-- The value is readable. -/
def holdsRead : Pc T → Bool
  | readReturning | holding | writeLocking | writeUnlocking | preparing _ | prepared _ | lowering
  | lowerLocked | notifying | lowered => true
  | _ => false

def holdsWrite : Pc T → Bool
  | mutating _ _ | mutated => true
  | _ => false

/-- The write lock is asked for. -/
def wantsWrite : Pc T → Bool
  | acquiring _ => true
  | _ => false

/-- Between raising the write intent and lowering it. -/
def hasIntent : Pc T → Bool
  | raised | reacquiring | preparing _ | prepared _ | acquiring _ | mutating _ _ | mutated
  | restoring | lowering | lowerLocked => true
  | _ => false

/-- Parked on the condition variable. -/
def isWaiting : Pc T → Bool
  | readWaiting | writeWaiting => true
  | _ => false

/-- Inside `read` or `try_writeable`. -/
def inCall : Pc T → Bool
  | outside | holding => false
  | _ => true

def woken : Pc T → Pc T
  | readWaiting => readWaking
  | writeWaiting => writeWaking
  | pc => pc

end Pc

/-- The threads, the flag and the value. -/
structure State (ι T : Type*) where
  pcs : ι → Pc T
  wantsWrite : Bool
  value : T

namespace State

variable {ι T : Type*}

/-- `Lock::new`. -/
def new (ι : Type*) (value : T) : State ι T where
  pcs _ := .outside
  wantsWrite := false
  value := value

def mutexFree (s : State ι T) : Prop := ∀ j, (s.pcs j).holdsMutex = false

/-- A read lock is to be had. -/
def readable (s : State ι T) (fair : Bool) : Prop :=
  ∀ j, (s.pcs j).holdsWrite = false ∧ (fair = true → (s.pcs j).wantsWrite = false)

/-- The write lock is to be had. -/
def writable (s : State ι T) : Prop :=
  ∀ j, (s.pcs j).holdsRead = false ∧ (s.pcs j).holdsWrite = false

def move [DecidableEq ι] (s : State ι T) (i : ι) (pc : Pc T) : State ι T :=
  { s with pcs := Function.update s.pcs i pc }

/-- `notify_all`. -/
def notifyAll (s : State ι T) : State ι T := { s with pcs := fun j => (s.pcs j).woken }

end State

variable {ι T : Type*} [DecidableEq ι]

/-- One operation of thread `i`. -/
inductive Step (fair : Bool) (i : ι) : State ι T → State ι T → Prop where
  | read {s} (h : s.pcs i = .outside) : Step fair i s (s.move i .readLocking)
  | readLock {s} (h : s.pcs i = .readLocking) (hfree : s.mutexFree) :
    Step fair i s (s.move i .readChecking)
  | readWait {s} (h : s.pcs i = .readChecking) (hwants : s.wantsWrite = true) :
    Step fair i s (s.move i .readWaiting)
  | readWake {s} (h : s.pcs i = .readWaking) (hfree : s.mutexFree) :
    Step fair i s (s.move i .readChecking)
  | readPass {s} (h : s.pcs i = .readChecking) (hwants : s.wantsWrite = false) :
    Step fair i s (s.move i .readAcquiring)
  | readAcquire {s} (h : s.pcs i = .readAcquiring) (hreadable : s.readable fair) :
    Step fair i s (s.move i .readReturning)
  | readReturn {s} (h : s.pcs i = .readReturning) : Step fair i s (s.move i .holding)
  /-- The guard is dropped. -/
  | drop {s} (h : s.pcs i = .holding) : Step fair i s (s.move i .outside)
  | tryWriteable {s} (h : s.pcs i = .holding) : Step fair i s (s.move i .writeLocking)
  | writeLock {s} (h : s.pcs i = .writeLocking) (hfree : s.mutexFree) :
    Step fair i s (s.move i .writeUnlocking)
  | unlockShared {s} (h : s.pcs i = .writeUnlocking) : Step fair i s (s.move i .writeChecking)
  | writeWait {s} (h : s.pcs i = .writeChecking) (hwants : s.wantsWrite = true) :
    Step fair i s (s.move i .writeWaiting)
  | writeWake {s} (h : s.pcs i = .writeWaking) (hfree : s.mutexFree) :
    Step fair i s (s.move i .writeChecking)
  | raise {s} (h : s.pcs i = .writeChecking) (hwants : s.wantsWrite = false) :
    Step fair i s { s.move i .raised with wantsWrite := true }
  | raiseUnlock {s} (h : s.pcs i = .raised) : Step fair i s (s.move i .reacquiring)
  | reacquire {s} (h : s.pcs i = .reacquiring) (hreadable : s.readable fair) :
    Step fair i s (s.move i (.preparing s.value))
  | prepare {s} {seen : T} (h : s.pcs i = .preparing seen) :
    Step fair i s (s.move i (.prepared seen))
  /-- `prep_func` panics. -/
  | prepareUnwind {s} {seen : T} (h : s.pcs i = .preparing seen) :
    Step fair i s (s.move i .lowering)
  | release {s} {seen : T} (h : s.pcs i = .prepared seen) :
    Step fair i s (s.move i (.acquiring seen))
  | acquire {s} {seen : T} (h : s.pcs i = .acquiring seen) (hwritable : s.writable) :
    Step fair i s (s.move i (.mutating seen s.value))
  | mutate {s} {seen given : T} (h : s.pcs i = .mutating seen given) (value : T) :
    Step fair i s { s with value := value }
  /-- `mut_func` returns or panics; what it did stays done. -/
  | mutateEnd {s} {seen given : T} (h : s.pcs i = .mutating seen given) :
    Step fair i s (s.move i .mutated)
  | writeUnlock {s} (h : s.pcs i = .mutated) : Step fair i s (s.move i .restoring)
  | restore {s} (h : s.pcs i = .restoring) (hreadable : s.readable fair) :
    Step fair i s (s.move i .lowering)
  | lowerLock {s} (h : s.pcs i = .lowering) (hfree : s.mutexFree) :
    Step fair i s (s.move i .lowerLocked)
  | lower {s} (h : s.pcs i = .lowerLocked) :
    Step fair i s { s.move i .notifying with wantsWrite := false }
  | notify {s} (h : s.pcs i = .notifying) : Step fair i s (s.notifyAll.move i .lowered)
  | lowerUnlock {s} (h : s.pcs i = .lowered) : Step fair i s (s.move i .holding)

/-- The states the threads reach. -/
def Run (fair : Bool) (value : T) : State ι T → Prop :=
  Reachable (· = State.new ι value) fun s s' => ∃ i, Step fair i s s'

/-! ### What a step does to the locks -/

variable {s s' : State ι T} {i : ι} {fair : Bool} {value : T}

/-- What a step makes of the write intent. -/
inductive Intends (s s' : State ι T) (i : ι) : Prop where
  | same (hintent : (s'.pcs i).hasIntent = (s.pcs i).hasIntent)
    (hwants : s'.wantsWrite = s.wantsWrite)
  | raises (hmutex : (s.pcs i).holdsMutex = true) (hbefore : s.wantsWrite = false)
    (hintent : (s'.pcs i).hasIntent = true) (hafter : s'.wantsWrite = true)
  | lowers (hmutex : (s.pcs i).holdsMutex = true) (hbefore : (s.pcs i).hasIntent = true)
    (hnotifying : s'.pcs i = .notifying) (hafter : s'.wantsWrite = false)

/-- A lock is only taken when it is to be had, and no other thread is moved but by a wake-up. -/
structure Moved (s s' : State ι T) (i : ι) : Prop where
  other : ∀ j, j ≠ i → s'.pcs j = s.pcs j ∨ s'.pcs j = (s.pcs j).woken
  mutex : (s'.pcs i).holdsMutex = true → (s.pcs i).holdsMutex = true ∨ s.mutexFree
  read : (s'.pcs i).holdsRead = true →
    (s.pcs i).holdsRead = true ∨ ∀ j, (s.pcs j).holdsWrite = false
  write : (s'.pcs i).holdsWrite = true → (s.pcs i).holdsWrite = true ∨ s.writable
  intent : Intends s s' i

theorem move_pcs (s : State ι T) (i : ι) (pc : Pc T) : (s.move i pc).pcs i = pc := by
  exact Function.update_self ..

omit [DecidableEq ι] in
theorem Moved.of_pcs {p q : Pc T} (h : s.pcs i = p) (hq : s'.pcs i = q)
    (hother : ∀ j, j ≠ i → s'.pcs j = s.pcs j ∨ s'.pcs j = (s.pcs j).woken)
    (hmutex : q.holdsMutex = true → p.holdsMutex = true ∨ s.mutexFree)
    (hread : q.holdsRead = true → p.holdsRead = true ∨ ∀ j, (s.pcs j).holdsWrite = false)
    (hwrite : q.holdsWrite = true → p.holdsWrite = true ∨ s.writable)
    (hintent : Intends s s' i) : Moved s s' i := by
  subst h hq
  exact ⟨hother, hmutex, hread, hwrite, hintent⟩

theorem Moved.of_move {p q : Pc T} (h : s.pcs i = p)
    (hmutex : q.holdsMutex = true → p.holdsMutex = true ∨ s.mutexFree)
    (hread : q.holdsRead = true → p.holdsRead = true ∨ ∀ j, (s.pcs j).holdsWrite = false)
    (hwrite : q.holdsWrite = true → p.holdsWrite = true ∨ s.writable)
    (hintent : q.hasIntent = p.hasIntent) : Moved s (s.move i q) i := by
  refine .of_pcs h (move_pcs s i q) ?_ hmutex hread hwrite (.same ?_ rfl)
  · exact fun j hj => .inl (Function.update_of_ne hj _ _)
  · rw [move_pcs, h, hintent]

theorem Step.moved (hstep : Step fair i s s') : Moved s s' i := by
  cases hstep with
  | read h | readWait h | drop h | writeWait h | raiseUnlock h | release h | writeUnlock h =>
    exact .of_move h nofun nofun nofun rfl
  | readLock h hfree | readWake h hfree | writeWake h hfree =>
    exact .of_move h (fun _ => .inr hfree) nofun nofun rfl
  | readPass h | unlockShared h => exact .of_move h (fun _ => .inl rfl) nofun nofun rfl
  | readAcquire h hreadable =>
    exact .of_move h (fun _ => .inl rfl) (fun _ => .inr fun j => (hreadable j).1) nofun rfl
  | readReturn h | tryWriteable h | prepare h | prepareUnwind h | lowerUnlock h =>
    exact .of_move h nofun (fun _ => .inl rfl) nofun rfl
  | writeLock h hfree | lowerLock h hfree =>
    exact .of_move h (fun _ => .inr hfree) (fun _ => .inl rfl) nofun rfl
  | raise h hwants =>
    have hq := move_pcs s i .raised
    refine .of_pcs h hq ?_ (fun _ => .inl rfl) nofun nofun (.raises ?_ hwants ?_ rfl)
    · exact fun j hj => .inl (Function.update_of_ne hj _ _)
    · rw [h]
      rfl
    · rw [hq]
      rfl
  | reacquire h hreadable | restore h hreadable =>
    exact .of_move h nofun (fun _ => .inr fun j => (hreadable j).1) nofun rfl
  | acquire h hwritable => exact .of_move h nofun nofun (fun _ => .inr hwritable) rfl
  | mutate h value => exact ⟨fun _ _ => .inl rfl, .inl, .inl, .inl, .same rfl rfl⟩
  | mutateEnd h => exact .of_move h nofun nofun (fun _ => .inl rfl) rfl
  | lower h =>
    have hq := move_pcs s i .notifying
    refine .of_pcs h hq ?_ (fun _ => .inl rfl) (fun _ => .inl rfl) nofun (.lowers ?_ ?_ hq rfl)
    · exact fun j hj => .inl (Function.update_of_ne hj _ _)
    · rw [h]
      rfl
    · rw [h]
      rfl
  | notify h =>
    have hq := move_pcs s.notifyAll i .lowered
    refine .of_pcs h hq ?_ (fun _ => .inl rfl) (fun _ => .inl rfl) nofun (.same ?_ rfl)
    · exact fun j hj => .inr (Function.update_of_ne hj _ _)
    · rw [hq, h]
      rfl

namespace Pc

theorem woken_holdsMutex (pc : Pc T) : pc.woken.holdsMutex = pc.holdsMutex := by cases pc <;> rfl

theorem woken_holdsRead (pc : Pc T) : pc.woken.holdsRead = pc.holdsRead := by cases pc <;> rfl

theorem woken_holdsWrite (pc : Pc T) : pc.woken.holdsWrite = pc.holdsWrite := by cases pc <;> rfl

theorem woken_hasIntent (pc : Pc T) : pc.woken.hasIntent = pc.hasIntent := by cases pc <;> rfl

theorem inCall_cases (pc : Pc T) (h : pc.inCall = true) :
    pc.holdsMutex = true ∨ pc.wantsMutex = true ∨ pc.hasIntent = true ∨ pc.isWaiting = true := by
  cases pc with
  | outside => cases h
  | holding => cases h
  | _ => simp [holdsMutex, wantsMutex, hasIntent, isWaiting]

/-- What a thread that has raised its intent saw is what is there. -/
def Saw (value : T) : Pc T → Prop
  | preparing seen | prepared seen | acquiring seen => seen = value
  | mutating seen given => given = seen
  | _ => True

end Pc

namespace Moved

variable {j k : ι}

omit [DecidableEq ι] in
/-- A wake-up gives and takes nothing. -/
theorem other_eq (h : Moved s s' i) (hj : j ≠ i) {flag : Pc T → Bool}
    (hwoken : ∀ pc, flag pc.woken = flag pc) : flag (s'.pcs j) = flag (s.pcs j) := by
  rcases h.other j hj with h | h
  · rw [h]
  · rw [h, hwoken]

/-- What is only taken when nobody has it is held by one. -/
theorem alone (h : Moved s s' i) {flag : Pc T → Bool} (hwoken : ∀ pc, flag pc.woken = flag pc)
    (hmine : flag (s'.pcs i) = true → flag (s.pcs i) = true ∨ ∀ j, flag (s.pcs j) = false)
    (halone : ∀ j k, flag (s.pcs j) = true → flag (s.pcs k) = true → j = k)
    (hj : flag (s'.pcs j) = true) (hk : flag (s'.pcs k) = true) : j = k := by
  have hother {j : ι} (hne : j ≠ i) (hflag : flag (s'.pcs j) = true) (hi : flag (s'.pcs i) = true) :
      False := by
    rw [h.other_eq hne hwoken] at hflag
    rcases hmine hi with hheld | hfree
    · exact hne (halone j i hflag hheld)
    · exact absurd ((hfree j).symm.trans hflag) Bool.false_ne_true
  by_cases hji : j = i
  · by_cases hki : k = i
    · rw [hji, hki]
    · exact (hother hki hk (hji ▸ hj)).elim
  · by_cases hki : k = i
    · exact (hother hji hj (hki ▸ hk)).elim
    · rw [h.other_eq hji hwoken] at hj
      rw [h.other_eq hki hwoken] at hk
      exact halone j k hj hk

end Moved

namespace Step

/-- The value changes in `mut_func` only. -/
theorem value_eq (hstep : Step fair i s s') :
    s'.value = s.value ∨ ∃ seen given, s.pcs i = .mutating seen given ∧ s'.pcs = s.pcs := by
  cases hstep with
  | mutate h value => exact .inr ⟨_, _, h, rfl⟩
  | _ => exact .inl rfl

theorem saw (hstep : Step fair i s s') (h : (s.pcs i).Saw s.value) :
    (s'.pcs i).Saw s'.value := by
  cases hstep with
  | reacquire =>
    rw [move_pcs]
    rfl
  | prepare hpc | release hpc =>
    rw [move_pcs]
    rw [hpc] at h
    exact h
  | acquire hpc =>
    rw [move_pcs]
    rw [hpc] at h
    exact h.symm
  | mutate hpc =>
    rw [hpc] at h ⊢
    exact h
  | _ =>
    rw [move_pcs]
    trivial

/-- A reader goes on for its lock with the flag down. -/
theorem passes (hstep : Step fair i s s') (h : s'.pcs i = .readAcquiring) :
    s'.wantsWrite = false := by
  cases hstep with
  | readPass _ hwants => exact hwants
  | mutate hpc =>
    rw [hpc] at h
    cases h
  | lower => rfl
  | _ =>
    rw [move_pcs] at h
    cases h

/-- Nobody parks with the flag down. -/
theorem parks (hstep : Step fair i s s') (h : (s'.pcs i).isWaiting = true) :
    s'.wantsWrite = true := by
  cases hstep with
  | readWait _ hwants | writeWait _ hwants => exact hwants
  | mutate hpc =>
    rw [hpc] at h
    cases h
  | raise => rfl
  | _ =>
    rw [move_pcs] at h
    cases h

/-- Whoever notifies wakes everybody. -/
theorem notifies (hstep : Step fair i s s') (h : s.pcs i = .notifying) {j : ι} (hj : j ≠ i) :
    s'.pcs j = (s.pcs j).woken := by
  cases hstep with
  | notify => exact Function.update_of_ne hj _ _
  | _ hpc =>
    rw [hpc] at h
    cases h

end Step

/-! ### Every reachable state -/

/-- What every step keeps. -/
structure Sound (s : State ι T) : Prop where
  mutex : ∀ i j, (s.pcs i).holdsMutex = true → (s.pcs j).holdsMutex = true → i = j
  intent : ∀ i j, (s.pcs i).hasIntent = true → (s.pcs j).hasIntent = true → i = j
  wants : s.wantsWrite = true ↔ ∃ i, (s.pcs i).hasIntent = true
  write : ∀ i j, (s.pcs i).holdsWrite = true → (s.pcs j).holdsRead = true ∨
    (s.pcs j).holdsWrite = true → i = j
  seen : ∀ i, (s.pcs i).Saw s.value
  /-- A reader that has found the flag down keeps the mutex until it has its lock. -/
  pass : ∀ i, s.pcs i = .readAcquiring → s.wantsWrite = false
  /-- Whoever is parked will be notified. -/
  waits : ∀ i, (s.pcs i).isWaiting = true → s.wantsWrite = true ∨ ∃ j, s.pcs j = .notifying

namespace Sound

omit [DecidableEq ι] in
theorem new (value : T) : Sound (State.new ι value) where
  mutex := nofun
  intent := nofun
  wants := ⟨nofun, fun ⟨_, h⟩ => nomatch h⟩
  write := nofun
  seen _ := trivial
  pass := nofun
  waits := nofun

/-- The flag tells whether somebody has the intent. -/
theorem wants_step (h : Sound s) (hmoved : Moved s s' i) :
    s'.wantsWrite = true ↔ ∃ j, (s'.pcs j).hasIntent = true := by
  have hother {j : ι} (hj : j ≠ i) := hmoved.other_eq hj Pc.woken_hasIntent
  cases hmoved.intent with
  | same hintent hwants =>
    rw [hwants, h.wants]
    apply exists_congr
    intro j
    by_cases hj : j = i
    · rw [hj, hintent]
    · rw [hother hj]
  | raises _ _ hintent hafter => exact ⟨fun _ => ⟨i, hintent⟩, fun _ => hafter⟩
  | lowers _ hbefore hnotifying hafter =>
    rw [hafter]
    refine ⟨nofun, ?_⟩
    rintro ⟨j, hj⟩
    by_cases hji : j = i
    · rw [hji, hnotifying] at hj
      cases hj
    · rw [hother hji] at hj
      exact absurd (h.intent j i hj hbefore) hji

theorem intent_step (h : Sound s) (hmoved : Moved s s' i) (j k : ι)
    (hj : (s'.pcs j).hasIntent = true) (hk : (s'.pcs k).hasIntent = true) : j = k := by
  refine hmoved.alone Pc.woken_hasIntent ?_ h.intent hj hk
  intro hi
  cases hmoved.intent with
  | same hintent =>
    rw [← hintent]
    exact .inl hi
  | raises _ hbefore =>
    right
    intro j
    rw [← Bool.not_eq_true]
    intro hj
    exact absurd (hbefore.symm.trans (h.wants.mpr ⟨j, hj⟩)) Bool.false_ne_true
  | lowers _ _ hnotifying =>
    rw [hnotifying] at hi
    cases hi

theorem write_step (h : Sound s) (hmoved : Moved s s' i) (j k : ι)
    (hj : (s'.pcs j).holdsWrite = true)
    (hk : (s'.pcs k).holdsRead = true ∨ (s'.pcs k).holdsWrite = true) : j = k := by
  by_cases hji : j = i
  · by_cases hki : k = i
    · rw [hji, hki]
    · rw [hmoved.other_eq hki Pc.woken_holdsRead, hmoved.other_eq hki Pc.woken_holdsWrite] at hk
      rw [hji] at hj ⊢
      rcases hmoved.write hj with hheld | hwritable
      · exact h.write i k hheld hk
      · obtain ⟨hread, hwrite⟩ := hwritable k
        rw [hread, hwrite] at hk
        rcases hk with hk | hk <;> cases hk
  · rw [hmoved.other_eq hji Pc.woken_holdsWrite] at hj
    by_cases hki : k = i
    · rw [hki] at hk ⊢
      rcases hk with hk | hk
      · rcases hmoved.read hk with hheld | hnone
        · exact h.write j i hj (.inl hheld)
        · exact absurd ((hnone j).symm.trans hj) Bool.false_ne_true
      · rcases hmoved.write hk with hheld | hwritable
        · exact h.write j i hj (.inr hheld)
        · exact absurd ((hwritable j).2.symm.trans hj) Bool.false_ne_true
    · rw [hmoved.other_eq hki Pc.woken_holdsRead, hmoved.other_eq hki Pc.woken_holdsWrite] at hk
      exact h.write j k hj hk

theorem seen_step (h : Sound s) (hstep : Step fair i s s') (j : ι) : (s'.pcs j).Saw s'.value := by
  by_cases hji : j = i
  · rw [hji]
    exact hstep.saw (h.seen i)
  · have hwoken (pc : Pc T) (value : T) : pc.woken.Saw value ↔ pc.Saw value := by cases pc <;> rfl
    have hj : (s'.pcs j).Saw s'.value ↔ (s.pcs j).Saw s'.value := by
      rcases hstep.moved.other j hji with hj | hj
      · rw [hj]
      · rw [hj, hwoken]
    rw [hj]
    rcases hstep.value_eq with hvalue | ⟨seen, given, hpc, -⟩
    · rw [hvalue]
      exact h.seen j
    · have hintent : (s.pcs j).hasIntent = false := by
        rw [← Bool.not_eq_true]
        intro hj
        exact hji (h.intent j i hj (by rw [hpc]; rfl))
      generalize s.pcs j = pc at hintent
      cases pc with
      | preparing | prepared | acquiring | mutating => cases hintent
      | _ => trivial

theorem pass_step (h : Sound s) (hstep : Step fair i s s') (j : ι)
    (hj : s'.pcs j = .readAcquiring) : s'.wantsWrite = false := by
  by_cases hji : j = i
  · exact hstep.passes (hji ▸ hj)
  · have hwoken (pc : Pc T) (hpc : pc.woken = .readAcquiring) : pc = .readAcquiring := by
      cases pc <;> first | rfl | cases hpc
    have hj : s.pcs j = .readAcquiring := by
      rcases hstep.moved.other j hji with h | h
      · rw [← h]
        exact hj
      · exact hwoken _ (h.symm.trans hj)
    have hdown := h.pass j hj
    cases hstep.moved.intent with
    | same _ hwants => exact hwants.trans hdown
    | raises hmutex => exact absurd (h.mutex j i (by rw [hj]; rfl) hmutex) hji
    | lowers _ _ _ hafter => exact hafter

theorem waits_step (h : Sound s) (hstep : Step fair i s s') (j : ι)
    (hj : (s'.pcs j).isWaiting = true) : s'.wantsWrite = true ∨ ∃ k, s'.pcs k = .notifying := by
  by_cases hji : j = i
  · exact .inl (hstep.parks (hji ▸ hj))
  · have hwoken (pc : Pc T) : pc.woken.isWaiting = false := by cases pc <;> rfl
    have hsame : s'.pcs j = s.pcs j := by
      rcases hstep.moved.other j hji with h | h
      · exact h
      · rw [h, hwoken] at hj
        cases hj
    have hwaiting : (s.pcs j).isWaiting = true := hsame ▸ hj
    cases hstep.moved.intent with
    | same _ hwants =>
      rw [hwants]
      rcases h.waits j hwaiting with hraised | ⟨k, hk⟩
      · exact .inl hraised
      · by_cases hki : k = i
        · rw [hstep.notifies (hki ▸ hk) hji, hwoken] at hj
          cases hj
        · refine .inr ⟨k, ?_⟩
          rcases hstep.moved.other k hki with h | h <;> rw [h, hk]
          rfl
    | raises _ _ _ hafter => exact .inl hafter
    | lowers _ _ hnotifying => exact .inr ⟨i, hnotifying⟩

theorem step (h : Sound s) (hstep : Step fair i s s') : Sound s' where
  mutex _ _ := hstep.moved.alone Pc.woken_holdsMutex hstep.moved.mutex h.mutex
  intent := h.intent_step hstep.moved
  wants := h.wants_step hstep.moved
  write := h.write_step hstep.moved
  seen := h.seen_step hstep
  pass := h.pass_step hstep
  waits := h.waits_step hstep

theorem of_run (h : Run fair value s) : Sound s := by
  apply h.invariant
  · rintro _ rfl
    exact new value
  · rintro s s' ⟨i, hstep⟩ hs
    exact hs.step hstep

end Sound

/-! ### Nobody waits in a circle -/

/-- Thread `i` waits for something that `j` has, or has to do. -/
inductive WaitsFor (s : State ι T) (i j : ι) : Prop where
  | mutex (hi : (s.pcs i).wantsMutex = true) (hj : (s.pcs j).holdsMutex = true)
  | notification (hi : (s.pcs i).isWaiting = true)
    (hj : (s.pcs j).hasIntent = true ∨ s.pcs j = .notifying)
  | readers {seen : T} (hi : s.pcs i = .acquiring seen) (hj : (s.pcs j).holdsRead = true)

/-- Thread `i` waits, if at all, for one that can go on with its call, or that just holds its
guard. -/
def Goes (fair : Bool) (s : State ι T) (i : ι) : Prop :=
  ∃ j, Relation.ReflTransGen (WaitsFor s) i j ∧
    ((s.pcs j).inCall = true ∧ (∃ s', Step fair j s s') ∨ s.pcs j = .holding)

theorem Goes.of_step {pc : Pc T} (hpc : s.pcs i = pc) (hcall : pc.inCall = true)
    (hstep : Step fair i s s') : Goes fair s i :=
  ⟨i, .refl, .inl ⟨hpc ▸ hcall, s', hstep⟩⟩

theorem Goes.of_waits {j : ι} (hwaits : WaitsFor s i j) (hj : Goes fair s j) : Goes fair s i := by
  obtain ⟨k, hrun, hk⟩ := hj
  exact ⟨k, .head hwaits hrun, hk⟩

namespace Sound

omit [DecidableEq ι] in
/-- Nobody writes or waits to, but who has the intent. -/
theorem readable_of (h : ∀ j, (s.pcs j).hasIntent = true →
    (s.pcs j).holdsWrite = false ∧ (s.pcs j).wantsWrite = false) : s.readable fair := by
  intro j
  cases hintent : (s.pcs j).hasIntent with
  | true => exact ⟨(h j hintent).1, fun _ => (h j hintent).2⟩
  | false =>
    generalize s.pcs j = pc at hintent
    cases pc with
    | mutating | mutated | acquiring => cases hintent
    | _ => exact ⟨rfl, fun _ => rfl⟩

/-- Whoever has the mutex goes on. -/
theorem owner_goes (h : Sound s) (hi : (s.pcs i).holdsMutex = true) : Goes fair s i := by
  cases hpc : s.pcs i with
  | readChecking =>
    cases hwants : s.wantsWrite with
    | true => exact .of_step hpc rfl (.readWait hpc hwants)
    | false => exact .of_step hpc rfl (.readPass hpc hwants)
  | readAcquiring =>
    have hdown := h.pass i hpc
    refine .of_step hpc rfl (.readAcquire hpc (readable_of fun j hj => ?_))
    exact absurd (hdown.symm.trans (h.wants.mpr ⟨j, hj⟩)) Bool.false_ne_true
  | readReturning => exact .of_step hpc rfl (.readReturn hpc)
  | writeUnlocking => exact .of_step hpc rfl (.unlockShared hpc)
  | writeChecking =>
    cases hwants : s.wantsWrite with
    | true => exact .of_step hpc rfl (.writeWait hpc hwants)
    | false => exact .of_step hpc rfl (.raise hpc hwants)
  | raised => exact .of_step hpc rfl (.raiseUnlock hpc)
  | lowerLocked => exact .of_step hpc rfl (.lower hpc)
  | notifying => exact .of_step hpc rfl (.notify hpc)
  | lowered => exact .of_step hpc rfl (.lowerUnlock hpc)
  | _ =>
    rw [hpc] at hi
    cases hi

/-- Whoever wants the mutex gets it, or waits for one that goes on. -/
theorem mutex_goes (h : Sound s) (hi : (s.pcs i).wantsMutex = true) : Goes fair s i := by
  by_cases hfree : s.mutexFree
  · cases hpc : s.pcs i with
    | readLocking => exact .of_step hpc rfl (.readLock hpc hfree)
    | readWaking => exact .of_step hpc rfl (.readWake hpc hfree)
    | writeLocking => exact .of_step hpc rfl (.writeLock hpc hfree)
    | writeWaking => exact .of_step hpc rfl (.writeWake hpc hfree)
    | lowering => exact .of_step hpc rfl (.lowerLock hpc hfree)
    | _ =>
      rw [hpc] at hi
      cases hi
  · obtain ⟨j, hj⟩ := not_forall.mp hfree
    have hj : (s.pcs j).holdsMutex = true := Bool.not_eq_false _ ▸ hj
    exact .of_waits (.mutex hi hj) (h.owner_goes hj)

/-- A reader that stands in the way of a writer lets go, if it does not just hold its guard. -/
theorem reader_goes (h : Sound s) (hi : (s.pcs i).holdsRead = true)
    (hintent : (s.pcs i).hasIntent = false) : Goes fair s i := by
  cases hpc : s.pcs i with
  | readReturning | writeUnlocking | notifying | lowered => exact h.owner_goes (by rw [hpc]; rfl)
  | holding => exact ⟨i, .refl, .inr hpc⟩
  | writeLocking => exact h.mutex_goes (by rw [hpc]; rfl)
  | preparing | prepared | lowering | lowerLocked =>
    rw [hpc] at hintent
    cases hintent
  | _ =>
    rw [hpc] at hi
    cases hi

/-- Whoever has the intent goes on to lower it. -/
theorem intent_goes (h : Sound s) (hi : (s.pcs i).hasIntent = true) : Goes fair s i := by
  have hreadable (hwrite : (s.pcs i).holdsWrite = false) (hwants : (s.pcs i).wantsWrite = false) :
      s.readable fair := by
    apply readable_of
    intro j hj
    rw [h.intent j i hj hi]
    exact ⟨hwrite, hwants⟩
  cases hpc : s.pcs i with
  | raised | lowerLocked => exact h.owner_goes (by rw [hpc]; rfl)
  | reacquiring =>
    exact .of_step hpc rfl (.reacquire hpc (hreadable (by rw [hpc]; rfl)
      (by rw [hpc]; rfl)))
  | preparing => exact .of_step hpc rfl (.prepare hpc)
  | prepared => exact .of_step hpc rfl (.release hpc)
  | acquiring =>
    by_cases hwritable : s.writable
    · exact .of_step hpc rfl (.acquire hpc hwritable)
    · obtain ⟨j, hj⟩ := not_forall.mp hwritable
      have hother : j ≠ i := by
        rintro rfl
        rw [hpc] at hj
        exact hj ⟨rfl, rfl⟩
      have hintent : (s.pcs j).hasIntent = false := by
        rw [← Bool.not_eq_true]
        exact fun hyes => hother (h.intent j i hyes hi)
      have hwrite : (s.pcs j).holdsWrite = false := by
        generalize s.pcs j = pc at hintent
        cases pc with
        | mutating | mutated => cases hintent
        | _ => rfl
      have hread : (s.pcs j).holdsRead = true := by
        rw [← Bool.not_eq_false]
        exact fun hno => hj ⟨hno, hwrite⟩
      exact .of_waits (.readers hpc hread) (h.reader_goes hread hintent)
  | mutating => exact .of_step hpc rfl (.mutateEnd hpc)
  | mutated => exact .of_step hpc rfl (.writeUnlock hpc)
  | restoring =>
    exact .of_step hpc rfl (.restore hpc (hreadable (by rw [hpc]; rfl)
      (by rw [hpc]; rfl)))
  | lowering => exact h.mutex_goes (by rw [hpc]; rfl)
  | _ =>
    rw [hpc] at hi
    cases hi

theorem goes (h : Sound s) (hi : (s.pcs i).inCall = true) : Goes fair s i := by
  rcases (s.pcs i).inCall_cases hi with hmutex | hwants | hintent | hwaiting
  · exact h.owner_goes hmutex
  · exact h.mutex_goes hwants
  · exact h.intent_goes hintent
  · rcases h.waits i hwaiting with hraised | ⟨j, hj⟩
    · obtain ⟨j, hj⟩ := h.wants.mp hraised
      exact .of_waits (.notification hwaiting (.inl hj)) (h.intent_goes hj)
    · exact .of_waits (.notification hwaiting (.inr hj)) (h.owner_goes (by rw [hj]; rfl))

end Sound

/-- In every run of any number of threads: one write intent at a time, which the flag tells; no
`mut_func` beside a readable guard or another `mut_func`; it is passed what `prep_func` saw; and
every call waits, if at all, for one that can go on or for a guard that is just held. -/
theorem device_lock (fair : Bool) (value : T) (s : State ι T) (hrun : Run fair value s) :
    (∀ i j, (s.pcs i).hasIntent = true → (s.pcs j).hasIntent = true → i = j) ∧
      (s.wantsWrite = true ↔ ∃ i, (s.pcs i).hasIntent = true) ∧
      (∀ i j seen given, s.pcs i = .mutating seen given → i ≠ j →
        (s.pcs j).holdsRead = false ∧ ∀ seen given, s.pcs j ≠ .mutating seen given) ∧
      (∀ i seen given, s.pcs i = .mutating seen given → given = seen) ∧
      ∀ i, (s.pcs i).inCall = true → Goes fair s i := by
  have h := Sound.of_run hrun
  refine ⟨h.intent, h.wants, ?_, ?_, fun i hi => h.goes hi⟩
  · intro i j seen given hi hne
    have hwrite : (s.pcs i).holdsWrite = true := by
      rw [hi]
      rfl
    constructor
    · rw [← Bool.not_eq_true]
      exact fun hread => hne (h.write i j hwrite (.inl hread))
    · intro seen given hj
      exact hne (h.write i j hwrite (.inr (by rw [hj]; rfl)))
  · intro i seen given hi
    have hsaw := h.seen i
    rw [hi] at hsaw
    exact hsaw

/-- Where two threads stand. -/
def pair (first second : Pc Nat) (wantsWrite : Bool) : State Bool Nat where
  pcs i := if i then second else first
  wantsWrite := wantsWrite
  value := 7

section

variable {first first' second second' : Pc Nat} {wantsWrite : Bool}

theorem pair_move_first :
    (pair first second wantsWrite).move false first' = pair first' second wantsWrite := by
  unfold State.move
  congr
  funext i
  cases i <;> rfl

theorem pair_first (h : Run true 7 (pair first second wantsWrite))
    (hstep : Step true false (pair first second wantsWrite)
      ((pair first second wantsWrite).move false first')) :
    Run true 7 (pair first' second wantsWrite) := by
  rw [← pair_move_first]
  exact h.step ⟨false, hstep⟩

theorem pair_second (h : Run true 7 (pair first second wantsWrite))
    (hstep : Step true true (pair first second wantsWrite)
      ((pair first second wantsWrite).move true second')) :
    Run true 7 (pair first second' wantsWrite) := by
  have hmove : (pair first second wantsWrite).move true second' =
      pair first second' wantsWrite := by
    unfold State.move
    congr
    funext i
    cases i <;> rfl
  rw [← hmove]
  exact h.step ⟨true, hstep⟩

theorem pair_mutexFree (hfirst : first.holdsMutex = false) (hsecond : second.holdsMutex = false) :
    (pair first second wantsWrite).mutexFree :=
  Bool.forall_bool.mpr ⟨hfirst, hsecond⟩

theorem pair_readable (hfirst : first.holdsWrite = false ∧ first.wantsWrite = false)
    (hsecond : second.holdsWrite = false ∧ second.wantsWrite = false) :
    (pair first second wantsWrite).readable true :=
  Bool.forall_bool.mpr ⟨⟨hfirst.1, fun _ => hfirst.2⟩, ⟨hsecond.1, fun _ => hsecond.2⟩⟩

end

theorem pair_holding_run : Run true 7 (pair .holding .holding false) := by
  have hnew : Run true 7 (pair .outside .outside false) := by
    apply Reachable.base
    unfold pair
    congr
    funext i
    cases i <;> rfl
  have hread := pair_first hnew (.read rfl)
  have hchecking := pair_first hread (.readLock rfl (pair_mutexFree rfl rfl))
  have hacquiring := pair_first hchecking (.readPass rfl rfl)
  have hreturning := pair_first hacquiring (.readAcquire rfl (pair_readable ⟨rfl, rfl⟩ ⟨rfl, rfl⟩))
  have hholding := pair_first hreturning (.readReturn rfl)
  have hread := pair_second hholding (.read rfl)
  have hchecking := pair_second hread (.readLock rfl (pair_mutexFree rfl rfl))
  have hacquiring := pair_second hchecking (.readPass rfl rfl)
  have hreturning := pair_second hacquiring (.readAcquire rfl (pair_readable ⟨rfl, rfl⟩ ⟨rfl, rfl⟩))
  exact pair_second hreturning (.readReturn rfl)

/-- Both upgrade at once: the second waits for the first, which has the value to itself. -/
theorem pair_mutating_run : Run true 7 (pair (.mutating 7 7) .writeWaiting true) := by
  have hfirst := pair_first pair_holding_run (.tryWriteable rfl)
  have hboth := pair_second hfirst (.tryWriteable rfl)
  have hunlocking := pair_first hboth (.writeLock rfl (pair_mutexFree rfl rfl))
  have hchecking := pair_first hunlocking (.unlockShared rfl)
  have hraised : Run true 7 (pair .raised .writeLocking true) := by
    have hraise := hchecking.step ⟨false, .raise rfl rfl⟩
    rw [pair_move_first] at hraise
    exact hraise
  have hreacquiring := pair_first hraised (.raiseUnlock rfl)
  have hunlocking := pair_second hreacquiring (.writeLock rfl (pair_mutexFree rfl rfl))
  have hchecking := pair_second hunlocking (.unlockShared rfl)
  have hwaiting := pair_second hchecking (.writeWait rfl rfl)
  have hpreparing : Run true 7 (pair (.preparing 7) .writeWaiting true) :=
    pair_first hwaiting (.reacquire rfl (pair_readable ⟨rfl, rfl⟩ ⟨rfl, rfl⟩))
  have hprepared := pair_first hpreparing (.prepare rfl)
  have hacquiring := pair_first hprepared (.release rfl)
  exact pair_first hacquiring (.acquire rfl (Bool.forall_bool.mpr ⟨⟨rfl, rfl⟩, ⟨rfl, rfl⟩⟩))

theorem device_lock_race :
    ((pair (.mutating 7 7) .writeWaiting true).pcs true).holdsRead = false ∧
      Goes true (pair (.mutating 7 7) .writeWaiting true) true := by
  obtain ⟨-, -, hexclusive, -, hgoes⟩ := device_lock true 7 _ pair_mutating_run
  exact ⟨(hexclusive false true 7 7 rfl nofun).1, hgoes true rfl⟩

end BoringTun.DevLock

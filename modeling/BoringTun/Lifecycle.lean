import BoringTun.Handshake.KeySchedule
import BoringTun.Lib.Machine
import BoringTun.Timers

/-!
The life of a tunnel's sessions, apart from bytes, buffers and timers.

A `Life` is what decides which session a tunnel sends on and what its queued packets wait
for: the two handshake slots, the ring, the selection, the establishment stamps, the queue
and whether a burst is pending. `Step` lists everything that can happen to it. The
operations of a tunnel are runs of this machine, and what is proved of its steps holds of
every run.

* `stampsBehind_step`, `settled_step`: no stamp is ahead of the clock, and no accepted
  initiation is left unanswered.
-/

namespace BoringTun

structure Life (P : Primitives) where
  params : NoiseParams P
  state : HandshakeState P
  previous : HandshakeState P
  ring : Fin N_SESSIONS → Option (Session P)
  /-- The index of the selected session. -/
  current : Nat
  /-- When the session in each slot was established. -/
  stamp : Fin N_SESSIONS → Nat
  /-- The last poll. -/
  clock : Nat
  queue : List Bytes
  burst : Bool

namespace Life

variable {P : Primitives}

/-- The session in the selected slot. -/
def selected (l : Life P) : Option (Session P) := l.ring (slotOf l.current)

/-- The handshake a life belongs to, as far as its keys and slots go. -/
structure Hosts (l : Life P) (h : Handshake P) : Prop where
  params : h.params = l.params
  state : h.state = l.state
  previous : h.previous = l.previous

/-- A handshake is on its way: a burst ahead of it, or the initiation itself. -/
def Underway (l : Life P) : Prop := l.burst = true ∨ ∃ sent, l.state = .initSent sent

/-- A new session in the slot of its index, established now. -/
def store (l : Life P) (session : Session P) : Life P :=
  { l with
    ring := Function.update l.ring (slotOf session.receivingIndex.toNat) (some session)
    stamp := Function.update l.stamp (slotOf session.receivingIndex.toNat) l.clock
    burst := false }

/-- Select a session, unless the selected one was established later. -/
def select (l : Life P) (index : Nat) : Life P :=
  if l.current = index then l
  else if l.selected.isNone ∨ l.stamp (slotOf index) ≥ l.stamp (slotOf l.current) then
    { l with current := index }
  else l

/-- An authenticated initiation is answered: the initiation in flight steps aside. -/
def answer (l : Life P) (session : Session P) : Life P :=
  { l with previous := l.state, state := .none }.store session

/-- The initiation a response answers is retired. -/
def retire (l : Life P) (isPrevious : Bool) : Life P :=
  if isPrevious then { l with previous := .none } else { l with state := .none }

/-- The session in a slot is replaced by itself after use. -/
def put (l : Life P) (slot : Fin N_SESSIONS) (session : Session P) : Life P :=
  { l with ring := Function.update l.ring slot (some session) }

def clearRing (l : Life P) : Life P := { l with ring := fun _ => none }

/-- What happened, with the slot it happened to. -/
inductive Label where
  | tick | age | expire | initiate | prepare | spend | enqueue | drain | send
  | respond (slot : Fin N_SESSIONS)
  | complete (slot : Fin N_SESSIONS)
  | receive (slot : Fin N_SESSIONS)
  | rekey

/-- The session the responder `h` derives from an initiation. -/
def responderSession (h : Handshake P) (init : AuthenticatedInit P) (ephemeral : P.Secret)
    (index : UInt32) : Session P :=
  .new index init.peerIndex (h.responseOf init ephemeral).initiatorKey
    (h.responseOf init ephemeral).responderKey

/-- Everything that can happen to a life. -/
inductive Step : Label → Life P → Life P → Prop where
  /-- The clock is polled. -/
  | tick {l : Life P} {now : Nat} (hnow : l.clock ≤ now) : Step .tick l { l with clock := now }
  /-- Sessions past their age are dropped. -/
  | age {l : Life P} (old : Fin N_SESSIONS → Bool) :
    Step .age l { l with
      ring := fun slot => if old slot then none else l.ring slot
      stamp := fun slot => if old slot then l.clock else l.stamp slot }
  /-- The cycle ends and everything it held is dropped. -/
  | expire {l : Life P} {now : Nat} (hnow : l.clock ≤ now) :
    Step .expire l { l.clearRing with
      state := .expired, previous := .expired, queue := [], burst := false, clock := now }
  /-- An initiation leaves. -/
  | initiate {l : Life P} {h : Handshake P} {env : Env P} (hosts : l.Hosts h) :
    Step .initiate l { l with previous := l.state, state := .initSent (h.sentOf env) }
  /-- A burst is prepared ahead of an initiation. -/
  | prepare {l : Life P} : Step .prepare l { l with burst := true }
  /-- The initiation a burst deferred has left. -/
  | spend {l : Life P} {sent : HandshakeInitSentState P} (hsent : l.state = .initSent sent) :
    Step .spend l { l with burst := false }
  /-- A packet is queued behind a handshake that is on its way. -/
  | enqueue {l : Life P} {packet : Bytes}
    (hunderway : l.Underway) :
    Step .enqueue l { l with queue := l.queue ++ [packet] }
  /-- Queued packets leave, or are dropped, with a session to send on. -/
  | drain {l : Life P} {n : Nat} (hselected : l.selected.isSome) :
    Step .drain l { l with queue := l.queue.drop n }
  /-- The selected session sends. -/
  | send {l : Life P} {session : Session P} (hselected : l.selected = some session)
    (hnonce : session.sendingExhausted = false) :
    Step .send l (l.put (slotOf l.current) session.advanced)
  /-- A peer's initiation is answered, in a slot other than the selected one. -/
  | respond {l : Life P} {h : Handshake P} {packet : HandshakeInit P}
    {init : AuthenticatedInit P} {ephemeral : P.Secret} {index : UInt32} (hosts : l.Hosts h)
    (hauth : h.authenticateInitiation packet = .ok init)
    (hslot : slotOf index.toNat ≠ slotOf l.current) :
    Step (.respond (slotOf index.toNat)) l
      (l.answer (responderSession h init ephemeral index))
  /-- A response is accepted; its session has sent the confirming keepalive. -/
  | complete {l : Life P} {h : Handshake P} {packet : HandshakeResponse P} {now : Nat}
    {response : AuthenticatedResponse P} {session : Session P} (hosts : l.Hosts h)
    (hauth : h.authenticateResponse now packet = .ok response)
    (hsession : session = { response.session with sendingKeyCounter := 1 }) :
    Step (.complete (slotOf session.receivingIndex.toNat)) l
      (((l.retire response.isPrevious).store session).select session.receivingIndex.toNat)
  /-- A transport packet is accepted on a session of the ring. -/
  | receive {l : Life P} {session : Session P} {mark : Session.ReceivingKeyCounterValidator}
    (hstored : l.ring (slotOf session.receivingIndex.toNat) = some session) :
    Step (.receive (slotOf session.receivingIndex.toNat)) l
      ((l.put (slotOf session.receivingIndex.toNat)
        { session with receivingKeyCounter := mark }).select session.receivingIndex.toNat)
  /-- Keys are replaced; sessions stay only if the effective keys do. -/
  | rekey {l : Life P} {params : NoiseParams P} (keep : Bool)
    (hpeer : params.peerStaticPublic = l.params.peerStaticPublic)
    (hkeep : keep = true → params.staticPrivate = l.params.staticPrivate ∧
      params.effectivePresharedKey = l.params.effectivePresharedKey) :
    Step .rekey l (if keep then { l with params := params } else { l.clearRing with params := params })

/-- Steps a tunnel takes by itself without sending transport. -/
def Label.Still : Label → Prop
  | .tick | .expire | .initiate | .prepare | .spend | .enqueue | .drain => True
  | _ => False

/-- Steps that accept nothing from the peer. -/
def Label.Silent : Label → Prop
  | .age | .send | .rekey => True
  | label => label.Still

theorem Label.Still.silent {label : Label} (h : label.Still) : label.Silent := by
  cases label with
  | age => trivial
  | send => trivial
  | rekey => trivial
  | _ => exact h

/-- What a tunnel does to serve a demand: some still steps, and then one transport packet
at most. -/
def Serves (l l' : Life P) : Prop :=
  ∃ l₁, Steps Step Label.Still l l₁ ∧ (l' = l₁ ∨ Step .send l₁ l')

namespace Serves

variable {l l₁ l' : Life P}

theorem still (h : Steps Step Label.Still l l') : Serves l l' := ⟨l', h, .inl rfl⟩

theorem refl (l : Life P) : Serves l l := still (.refl l)

theorem send (h : Steps Step Label.Still l l₁) (hsend : Step .send l₁ l') : Serves l l' :=
  ⟨l₁, h, .inr hsend⟩

theorem silent (h : Serves l l') : Steps Step Label.Silent l l' := by
  obtain ⟨l₁, hsteps, hlast⟩ := h
  have hsilent : Steps Step Label.Silent l l₁ := hsteps.mono fun _ => Label.Still.silent
  rcases hlast with rfl | hsend
  · exact hsilent
  · exact hsilent.tail hsend trivial

end Serves

/-! ### Two invariants of every run -/

/-- No establishment stamp is ahead of the clock. -/
def StampsBehind (l : Life P) : Prop := ∀ slot, l.stamp slot ≤ l.clock

/-- No accepted initiation is left unanswered. -/
def Settled (l : Life P) : Prop :=
  (∀ hash chain ephemeral index, l.state ≠ .initReceived hash chain ephemeral index) ∧
    ∀ hash chain ephemeral index, l.previous ≠ .initReceived hash chain ephemeral index

/-- What the life of a new tunnel holds: nothing. -/
structure IsBlank (l : Life P) : Prop where
  state : l.state = .none
  previous : l.previous = .none
  ring : ∀ slot, l.ring slot = none
  stamp : l.StampsBehind
  queue : l.queue = []

theorem IsBlank.settled {l : Life P} (h : l.IsBlank) : l.Settled := by
  constructor
  · rw [h.state]
    nofun
  · rw [h.previous]
    nofun

/-- A selection moves `current` and nothing else. -/
theorem select_eq (l : Life P) (index : Nat) :
    l.select index = { l with current := (l.select index).current } := by
  unfold select
  split
  · rfl
  · split <;> rfl

@[simp] theorem ring_select (l : Life P) (index : Nat) : (l.select index).ring = l.ring := by
  rw [select_eq]

@[simp] theorem stamp_select (l : Life P) (index : Nat) : (l.select index).stamp = l.stamp := by
  rw [select_eq]

theorem ring_store (l : Life P) (session : Session P) (slot : Fin N_SESSIONS) :
    (l.store session).ring slot =
      if slot = slotOf session.receivingIndex.toNat then some session else l.ring slot :=
  Function.update_apply ..

theorem stamp_store (l : Life P) (session : Session P) (slot : Fin N_SESSIONS) :
    (l.store session).stamp slot =
      if slot = slotOf session.receivingIndex.toNat then l.clock else l.stamp slot :=
  Function.update_apply ..

theorem ring_put (l : Life P) (session : Session P) (slot other : Fin N_SESSIONS) :
    (l.put slot session).ring other = if other = slot then some session else l.ring other :=
  Function.update_apply ..

@[simp] theorem current_store (l : Life P) (session : Session P) :
    (l.store session).current = l.current := rfl

theorem ring_answer (l : Life P) (session : Session P) (slot : Fin N_SESSIONS) :
    (l.answer session).ring slot =
      if slot = slotOf session.receivingIndex.toNat then some session else l.ring slot :=
  ring_store ..

theorem stamp_answer (l : Life P) (session : Session P) (slot : Fin N_SESSIONS) :
    (l.answer session).stamp slot =
      if slot = slotOf session.receivingIndex.toNat then l.clock else l.stamp slot :=
  stamp_store ..

@[simp] theorem current_answer (l : Life P) (session : Session P) :
    (l.answer session).current = l.current := rfl

@[simp] theorem responderSession_receivingIndex (h : Handshake P) (init : AuthenticatedInit P)
    (ephemeral : P.Secret) (index : UInt32) :
    (responderSession h init ephemeral index).receivingIndex = index := rfl

@[simp] theorem ring_retire (l : Life P) (isPrevious : Bool) :
    (l.retire isPrevious).ring = l.ring := by
  cases isPrevious <;> rfl

@[simp] theorem stamp_retire (l : Life P) (isPrevious : Bool) :
    (l.retire isPrevious).stamp = l.stamp := by
  cases isPrevious <;> rfl

@[simp] theorem current_retire (l : Life P) (isPrevious : Bool) :
    (l.retire isPrevious).current = l.current := by
  cases isPrevious <;> rfl

@[simp] theorem clock_retire (l : Life P) (isPrevious : Bool) :
    (l.retire isPrevious).clock = l.clock := by
  cases isPrevious <;> rfl

theorem StampsBehind.select {l : Life P} (h : l.StampsBehind) (index : Nat) :
    (l.select index).StampsBehind := by
  rw [select_eq]
  exact h

theorem StampsBehind.store {l : Life P} (h : l.StampsBehind) (session : Session P) :
    (l.store session).StampsBehind := by
  intro slot
  rw [stamp_store]
  split
  · exact Nat.le_refl _
  · exact h slot

theorem StampsBehind.retire {l : Life P} (h : l.StampsBehind) (isPrevious : Bool) :
    (l.retire isPrevious).StampsBehind := by
  cases isPrevious with
  | false => exact h
  | true => exact h

/-- A session stored a moment ago is established as late as any, and is selected. -/
theorem StampsBehind.select_store {l : Life P} (h : l.StampsBehind) (session : Session P) :
    ((l.store session).select session.receivingIndex.toNat).current =
      session.receivingIndex.toNat := by
  have hstamp : (l.store session).stamp (slotOf session.receivingIndex.toNat) = l.clock := by
    rw [stamp_store, if_pos rfl]
  unfold Life.select
  split
  · next heq => exact heq
  · rw [if_pos]
    right
    rw [hstamp]
    exact (h.store session) _

theorem stampsBehind_step {label : Label} {l l' : Life P} (hstep : Step label l l')
    (h : l.StampsBehind) : l'.StampsBehind := by
  cases hstep with
  | tick hnow | expire hnow => exact fun slot => Nat.le_trans (h slot) hnow
  | age old =>
    intro slot
    dsimp only
    split
    · exact Nat.le_refl _
    · exact h slot
  | respond hosts hauth hslot => exact StampsBehind.store h _
  | complete hosts hauth hsession => exact ((h.retire _).store _).select _
  | receive hstored =>
    apply StampsBehind.select
    exact h
  | rekey keep hpeer hkeep =>
    split
    · exact h
    · exact h
  | _ => exact h

theorem settled_step {label : Label} {l l' : Life P} (hstep : Step label l l')
    (h : l.Settled) : l'.Settled := by
  obtain ⟨hstate, hprevious⟩ := h
  cases hstep with
  | expire hnow => exact ⟨nofun, nofun⟩
  | initiate hosts | respond hosts hauth hslot => exact ⟨nofun, hstate⟩
  | @complete _ _ _ _ response =>
    rw [select_eq]
    cases hprev : response.isPrevious with
    | false => exact ⟨nofun, hprevious⟩
    | true => exact ⟨hstate, nofun⟩
  | receive hstored =>
    rw [select_eq]
    exact ⟨hstate, hprevious⟩
  | rekey keep hpeer hkeep =>
    split
    · exact ⟨hstate, hprevious⟩
    · exact ⟨hstate, hprevious⟩
  | _ => exact ⟨hstate, hprevious⟩

end Life

end BoringTun

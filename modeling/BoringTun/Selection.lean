import BoringTun.Tunn.OneByte
import BoringTun.Tunn.Simulation

/-!
Which session a tunnel sends on, over whole runs.

A `Ledger` runs along with a tunnel and records, for the session in each slot, what it was
made from and when it was stored. It is read off what the calls accept, and nothing of the
tunnel depends on it.

* `selected_confirmed`: transport is never sent on a session the peer has not confirmed;
* `receive_selects_later`: a packet moves the selection to a session stored later, in runs
  that poll the timers between two establishments.
-/

namespace BoringTun

open Life

variable {P : Primitives}

/-- What a session was made from. -/
inductive Origin where
  /-- An accepted response to our own initiation. -/
  | response
  /-- A peer's initiation, and nothing was received on the session yet. -/
  | initiation
  /-- A peer's initiation, and a transport packet was authenticated on the session. -/
  | confirmedInitiation
  deriving DecidableEq

def Origin.confirmed : Origin → Origin
  | .response => .response
  | .initiation | .confirmedInitiation => .confirmedInitiation

structure Ledger where
  /-- How many sessions were stored. -/
  stored : Nat := 0
  origin : Fin N_SESSIONS → Origin := fun _ => .initiation
  /-- The place of a slot's session in the order of storing. -/
  serial : Fin N_SESSIONS → Nat := fun _ => 0

namespace Ledger

def store (ledger : Ledger) (slot : Fin N_SESSIONS) (origin : Origin) : Ledger where
  stored := ledger.stored + 1
  origin := Function.update ledger.origin slot origin
  serial := Function.update ledger.serial slot ledger.stored

theorem origin_store (ledger : Ledger) (slot other : Fin N_SESSIONS) (origin : Origin) :
    (ledger.store slot origin).origin other = if other = slot then origin else ledger.origin other :=
  Function.update_apply ..

theorem serial_store (ledger : Ledger) (slot other : Fin N_SESSIONS) (origin : Origin) :
    (ledger.store slot origin).serial other =
      if other = slot then ledger.stored else ledger.serial other :=
  Function.update_apply ..

def confirm (ledger : Ledger) (slot : Fin N_SESSIONS) : Ledger :=
  { ledger with origin := Function.update ledger.origin slot (ledger.origin slot).confirmed }

theorem origin_confirm (ledger : Ledger) (slot other : Fin N_SESSIONS) :
    (ledger.confirm slot).origin other =
      if other = slot then (ledger.origin slot).confirmed else ledger.origin other :=
  Function.update_apply ..

def record (ledger : Ledger) : Label → Ledger
  | .respond slot => ledger.store slot .initiation
  | .complete slot => ledger.store slot .response
  | .receive slot => ledger.confirm slot
  | _ => ledger

/-- The ledger after a call. -/
def after (ledger : Ledger) (t : Tunn P) (env : Env P) (op : Op P) : Ledger :=
  match t.event env op with
  | some label => ledger.record label
  | none => ledger

end Ledger

/-- A tunnel and its ledger some calls after a constructor returned the tunnel, where every
call `t.after env op` was `allowed`. -/
def Logged (allowed : Tunn P → Env P → Op P → Prop) (t : Tunn P) (ledger : Ledger) : Prop :=
  Reachable (fun s : Tunn P × Ledger => s.1.IsNew ∧ s.2 = {})
    (fun s s' => ∃ env op, allowed s.1 env op ∧ s' = (s.1.after env op, s.2.after s.1 env op))
    (t, ledger)

namespace Ledger

/-- A tunnel and its ledger after some calls. -/
def play : List (Env P × Op P) → Tunn P × Ledger → Tunn P × Ledger
  | [], s => s
  | (env, op) :: calls, s => play calls (s.1.after env op, s.2.after s.1 env op)

/-- All of the calls are allowed when they are made. -/
def Plays (allowed : Tunn P → Env P → Op P → Prop) : List (Env P × Op P) → Tunn P × Ledger → Prop
  | [], _ => True
  | (env, op) :: calls, s =>
    allowed s.1 env op ∧ Plays allowed calls (s.1.after env op, s.2.after s.1 env op)

instance decidablePlays (allowed : Tunn P → Env P → Op P → Prop)
    [∀ t env op, Decidable (allowed t env op)] :
    (calls : List (Env P × Op P)) → (s : Tunn P × Ledger) → Decidable (Plays allowed calls s)
  | [], _ => isTrue trivial
  | (env, op) :: calls, s =>
    have := decidablePlays allowed calls (s.1.after env op, s.2.after s.1 env op)
    inferInstanceAs (Decidable (_ ∧ _))

end Ledger

theorem Logged.play {allowed : Tunn P → Env P → Op P → Prop} (calls : List (Env P × Op P))
    {s : Tunn P × Ledger} (h : Logged allowed s.1 s.2) (hplays : Ledger.Plays allowed calls s) :
    Logged allowed (Ledger.play calls s).1 (Ledger.play calls s).2 := by
  induction calls generalizing s with
  | nil => exact h
  | cons call calls ih =>
    obtain ⟨env, op⟩ := call
    obtain ⟨hallowed, hplays⟩ := hplays
    exact ih (h.step ⟨env, op, hallowed, rfl⟩) hplays

theorem Logged.new (allowed : Tunn P → Env P → Op P → Prop) {t : Tunn P} (h : t.IsNew) :
    Logged allowed t {} :=
  ⟨(t, {}), ⟨h, rfl⟩, .refl⟩

/-! ### One step -/

namespace Life

/-- A selection takes the index, or stays on a session that is there. -/
theorem select_cases (l : Life P) (index : Nat) :
    (l.select index).current = index ∨
      (l.select index).current = l.current ∧ l.selected.isSome := by
  unfold select
  split
  · next heq => exact .inl heq
  · split
    · exact .inl rfl
    · next hstay =>
      rw [not_or] at hstay
      exact .inr ⟨rfl, Option.isSome_iff_ne_none.mpr (by simpa using hstay.1)⟩

/-- Silent steps keep the selection, put no session where there was none, and keep the
stamps of the sessions that stay. -/
theorem silent_step {label : Label} {l l' : Life P} (hstep : Step label l l')
    (hsilent : label.Silent) : l'.current = l.current ∧
      ∀ slot, (l'.ring slot).isSome → (l.ring slot).isSome ∧ l'.stamp slot = l.stamp slot := by
  cases hstep with
  | age old =>
    refine ⟨rfl, fun slot hsome => ?_⟩
    dsimp only at hsome ⊢
    split at hsome
    · cases hsome
    · next hyoung => exact ⟨hsome, if_neg hyoung⟩
  | send hselected hnonce =>
    refine ⟨rfl, fun slot hsome => ⟨?_, rfl⟩⟩
    unfold put at hsome
    dsimp only at hsome
    rw [Function.update_apply] at hsome
    split at hsome
    · next hslot =>
      subst hslot
      exact Option.isSome_of_eq_some hselected
    · exact hsome
  | expire hnow => exact ⟨rfl, nofun⟩
  | respond hosts hauth hslot | complete hosts hauth hsession | receive hstored => cases hsilent
  | rekey keep hpeer hkeep =>
    cases keep with
    | true => exact ⟨rfl, fun slot hsome => ⟨hsome, rfl⟩⟩
    | false => exact ⟨rfl, nofun⟩
  | _ => exact ⟨rfl, fun slot hsome => ⟨hsome, rfl⟩⟩

/-- The session to send on is not waiting for its confirmation. -/
def Confirmed (l : Life P) (ledger : Ledger) : Prop :=
  l.selected.isSome → ledger.origin (slotOf l.current) ≠ .initiation

theorem Confirmed.silent {label : Label} {l l' : Life P} {ledger : Ledger}
    (h : l.Confirmed ledger) (hstep : Step label l l') (hsilent : label.Silent) :
    l'.Confirmed ledger := by
  obtain ⟨hcurrent, hring⟩ := silent_step hstep hsilent
  intro hselected
  have hbefore := (hring _ hselected).1
  rw [hcurrent] at hbefore ⊢
  exact h hbefore

/-- A selection of a slot whose session is confirmed, or a selection that stays. -/
theorem Confirmed.select {l : Life P} {ledger : Ledger} {index : Nat}
    (hindex : ledger.origin (slotOf index) ≠ .initiation)
    (hstay : slotOf l.current ≠ slotOf index → l.Confirmed ledger) :
    (l.select index).Confirmed ledger := by
  intro hselected
  rcases select_cases l index with hcurrent | ⟨hcurrent, hthere⟩
  · rw [hcurrent]
    exact hindex
  · rw [hcurrent]
    by_cases hslot : slotOf l.current = slotOf index
    · rw [hslot]
      exact hindex
    · exact hstay hslot hthere

theorem Origin.confirmed_ne (origin : Origin) : origin.confirmed ≠ .initiation := by
  cases origin <;> decide

/-- Every step keeps the session to send on confirmed, as the ledger records it. -/
theorem Confirmed.step {label : Label} {l l' : Life P} {ledger : Ledger}
    (h : l.Confirmed ledger) (hstep : Step label l l') : l'.Confirmed (ledger.record label) := by
  have silent (hsilent : label.Silent) (hrecord : ledger.record label = ledger) :
      l'.Confirmed (ledger.record label) := by
    rw [hrecord]
    exact h.silent hstep hsilent
  cases hstep with
  | @respond _ _ _ _ _ index hosts hauth hslot =>
    intro hselected
    rw [Life.selected, ring_answer, current_answer, responderSession_receivingIndex,
      if_neg hslot.symm] at hselected
    rw [Ledger.record, Ledger.origin_store, current_answer, if_neg hslot.symm]
    exact h hselected
  | @complete _ _ _ _ response session hosts hauth hsession =>
    apply Confirmed.select
    · rw [Ledger.record, Ledger.origin_store, if_pos rfl]
      decide
    · intro hslot hselected
      rw [current_store, current_retire] at hslot
      rw [Life.selected, ring_store, current_store, current_retire, ring_retire, if_neg hslot]
        at hselected
      rw [Ledger.record, Ledger.origin_store, current_store, current_retire, if_neg hslot]
      exact h hselected
  | @receive _ session mark hstored =>
    apply Confirmed.select
    · rw [Ledger.record, Ledger.origin_confirm, if_pos rfl]
      exact Origin.confirmed_ne _
    · intro hslot hselected
      rw [Life.selected, ring_put, if_neg hslot] at hselected
      rw [Ledger.record, Ledger.origin_confirm, if_neg hslot]
      exact h hselected
  | rekey keep hpeer hkeep => exact silent trivial rfl
  | _ => exact silent trivial rfl

/-- Of two sessions in the ring the one stored later carries the later stamp. -/
structure Ordered (l : Life P) (ledger : Ledger) : Prop where
  serial_lt : ∀ slot, (l.ring slot).isSome → ledger.serial slot < ledger.stored
  serial_inj : ∀ i j, (l.ring i).isSome → (l.ring j).isSome →
    ledger.serial i = ledger.serial j → i = j
  stamp_lt : ∀ i j, (l.ring i).isSome → (l.ring j).isSome →
    ledger.serial i < ledger.serial j → l.stamp i < l.stamp j

/-- Fewer sessions with the same stamps. -/
theorem Ordered.shrink {l l' : Life P} {ledger ledger' : Ledger} (h : l.Ordered ledger)
    (hring : ∀ slot, (l'.ring slot).isSome → (l.ring slot).isSome ∧ l'.stamp slot = l.stamp slot)
    (hserial : ledger'.serial = ledger.serial) (hstored : ledger'.stored = ledger.stored) :
    l'.Ordered ledger' where
  serial_lt slot hslot := by
    rw [hserial, hstored]
    exact h.serial_lt slot (hring slot hslot).1
  serial_inj i j hi hj heq := by
    rw [hserial] at heq
    exact h.serial_inj i j (hring i hi).1 (hring j hj).1 heq
  stamp_lt i j hi hj hlt := by
    rw [hserial] at hlt
    rw [(hring i hi).2, (hring j hj).2]
    exact h.stamp_lt i j (hring i hi).1 (hring j hj).1 hlt

/-- One session more, established after all the others. -/
theorem Ordered.store {l l' : Life P} {ledger : Ledger} {slot : Fin N_SESSIONS} (origin : Origin)
    (h : l.Ordered ledger) (hring : ∀ other, other ≠ slot → l'.ring other = l.ring other)
    (hstamp : ∀ other, l'.stamp other = if other = slot then l.clock else l.stamp other)
    (hspaced : ∀ other, other ≠ slot → (l.ring other).isSome → l.stamp other < l.clock) :
    l'.Ordered (ledger.store slot origin) := by
  have hold {other : Fin N_SESSIONS} (hne : other ≠ slot) (hsome : (l'.ring other).isSome) :
      (l.ring other).isSome := hring other hne ▸ hsome
  refine ⟨fun i hi => ?_, fun i j hi hj heq => ?_, fun i j hi hj hlt => ?_⟩
  · rw [Ledger.serial_store]
    split
    · exact Nat.lt_succ_self _
    · next hne => exact Nat.lt_succ_of_lt (h.serial_lt i (hold hne hi))
  · rw [Ledger.serial_store, Ledger.serial_store] at heq
    split at heq
    · next hi' =>
      split at heq
      · next hj' => exact hi'.trans hj'.symm
      · next hne => exact absurd heq.symm (Nat.ne_of_lt (h.serial_lt j (hold hne hj)))
    · next hne =>
      split at heq
      · exact absurd heq (Nat.ne_of_lt (h.serial_lt i (hold hne hi)))
      · next hne' => exact h.serial_inj i j (hold hne hi) (hold hne' hj) heq
  · rw [Ledger.serial_store, Ledger.serial_store] at hlt
    rw [hstamp, hstamp]
    split at hlt
    · -- nothing is stored later than the session just stored
      split at hlt
      · exact absurd hlt (Nat.lt_irrefl _)
      · next hne => exact absurd hlt (Nat.lt_asymm (h.serial_lt j (hold hne hj)))
    · next hne =>
      rw [if_neg hne]
      split at hlt
      · next hj' =>
        rw [if_pos hj']
        exact hspaced i hne (hold hne hi)
      · next hne' =>
        rw [if_neg hne']
        exact h.stamp_lt i j (hold hne hi) (hold hne' hj) hlt

/-- A session replaced by itself. -/
theorem Ordered.put {l : Life P} {ledger : Ledger} (h : l.Ordered ledger) {slot : Fin N_SESSIONS}
    (session : Session P) (hstored : (l.ring slot).isSome) : (l.put slot session).Ordered ledger := by
  refine h.shrink (fun other hsome => ⟨?_, rfl⟩) rfl rfl
  rw [ring_put] at hsome
  split at hsome
  · next hslot => exact hslot ▸ hstored
  · exact hsome

/-- A selection that leaves a session for another takes a later one. -/
theorem Ordered.select_later {l : Life P} {ledger : Ledger} (h : l.Ordered ledger) {index : Nat}
    (hstored : (l.ring (slotOf index)).isSome) (hthere : l.selected.isSome)
    (hmoved : slotOf (l.select index).current ≠ slotOf l.current) :
    ledger.serial (slotOf l.current) < ledger.serial (slotOf (l.select index).current) := by
  unfold select at hmoved ⊢
  split at hmoved
  · exact absurd rfl hmoved
  · next hother =>
    split at hmoved
    · next hselects =>
      rw [if_neg hother, if_pos hselects]
      dsimp only at hmoved ⊢
      rcases Nat.lt_trichotomy (ledger.serial (slotOf l.current)) (ledger.serial (slotOf index)) with
        hlt | heq | hgt
      · exact hlt
      · exact absurd (h.serial_inj _ _ hthere hstored heq) hmoved.symm
      · have hearlier := h.stamp_lt _ _ hstored hthere hgt
        rcases hselects with hnone | hstamp
        · rw [Option.isNone_iff_eq_none] at hnone
          rw [hnone] at hthere
          cases hthere
        · exact absurd hstamp (Nat.not_le.mpr hearlier)
    · exact absurd rfl hmoved

/-- When a session is stored, every other one was established before the last poll. -/
def Label.Spaced (label : Label) (l : Life P) : Prop :=
  match label with
  | .respond slot | .complete slot =>
    ∀ other, other ≠ slot → (l.ring other).isSome → l.stamp other < l.clock
  | _ => True

instance (label : Label) (l : Life P) : Decidable (label.Spaced l) :=
  match label with
  | .respond slot | .complete slot => inferInstanceAs (Decidable
      (∀ other, other ≠ slot → (l.ring other).isSome → l.stamp other < l.clock))
  | .tick | .age | .expire | .initiate | .prepare | .spend | .enqueue | .drain | .send
  | .receive _ | .rekey => isTrue trivial

theorem Ordered.step {label : Label} {l l' : Life P} {ledger : Ledger} (h : l.Ordered ledger)
    (hstep : Step label l l') (hspaced : label.Spaced l) : l'.Ordered (ledger.record label) := by
  have silent (hsilent : label.Silent) (hrecord : ledger.record label = ledger) :
      l'.Ordered (ledger.record label) := by
    rw [hrecord]
    exact h.shrink (silent_step hstep hsilent).2 rfl rfl
  cases hstep with
  | respond hosts hauth hslot =>
    refine h.store .initiation ?_ ?_ hspaced
    · intro other hne
      rw [ring_answer, responderSession_receivingIndex, if_neg hne]
    · intro other
      rw [stamp_answer, responderSession_receivingIndex]
  | complete hosts hauth hsession =>
    refine h.store .response ?_ ?_ hspaced
    · intro other hne
      rw [ring_select, ring_store, if_neg hne, ring_retire]
    · intro other
      rw [stamp_select, stamp_store, clock_retire, stamp_retire]
  | @receive _ session mark hstored =>
    refine (h.put { session with receivingKeyCounter := mark }
      (Option.isSome_of_eq_some hstored)).shrink (fun slot hsome => ⟨?_, ?_⟩) rfl rfl
    · rw [ring_select] at hsome
      exact hsome
    · rw [stamp_select]
  | rekey keep hpeer hkeep => exact silent trivial rfl
  | _ => exact silent trivial rfl

end Life

/-! ### Whole runs -/

/-- An invariant of lives with their ledgers: silent steps keep it, and so do the steps of
the calls that are allowed. -/
theorem Logged.invariant {allowed : Tunn P → Env P → Op P → Prop} {t : Tunn P} {ledger : Ledger}
    (h : Logged allowed t ledger) (inv : Life P → Ledger → Prop)
    (hblank : ∀ l, l.IsBlank → inv l {})
    (hsilent : ∀ label l l' ledger, Step label l l' → label.Silent → inv l ledger → inv l' ledger)
    (hloud : ∀ t env op label l' ledger, allowed t env op → t.event env op = some label →
      Step label t.life l' → inv t.life ledger → inv l' (ledger.record label)) :
    t.Visited ∧ inv t.life ledger := by
  refine Reachable.invariant h (fun s => s.1.Visited ∧ inv s.1.life s.2) ?_ ?_
  · rintro ⟨t, ledger⟩ ⟨hnew, rfl⟩
    exact ⟨⟨t, hnew, .refl⟩, hblank _ hnew.blank⟩
  · rintro ⟨t, ledger⟩ _ ⟨env, op, hallowed, rfl⟩ ⟨hvisited, hinv⟩
    refine ⟨hvisited.after env op, ?_⟩
    have hsim := Tunn.after_simulates hvisited.settled env op
    cases hevent : t.event env op with
    | some label =>
      simp only [hevent, Ledger.after] at hsim ⊢
      exact hloud t env op label _ ledger hallowed hevent hsim hinv
    | none =>
      simp only [hevent, Ledger.after] at hsim ⊢
      exact hsim.invariant (fun label l l' hs hstep => hsilent label l l' ledger hstep hs) hinv

theorem Logged.confirmed {allowed : Tunn P → Env P → Op P → Prop} {t : Tunn P} {ledger : Ledger}
    (h : Logged allowed t ledger) : t.Visited ∧ t.life.Confirmed ledger := by
  refine h.invariant Life.Confirmed ?_ ?_ ?_
  · intro l hblank hselected
    rw [Life.selected, hblank.ring] at hselected
    cases hselected
  · intro label l l' ledger hstep hsilent hconfirmed
    exact hconfirmed.silent hstep hsilent
  · intro t env op label l' ledger _ _ hstep hconfirmed
    exact hconfirmed.step hstep

/-- Calls that store a session only when every other one was established before the last
poll. -/
def Spaced (t : Tunn P) (env : Env P) (op : Op P) : Prop :=
  ∀ label ∈ t.event env op, label.Spaced t.life

instance (t : Tunn P) (env : Env P) (op : Op P) : Decidable (Spaced t env op) :=
  inferInstanceAs (Decidable (∀ label ∈ t.event env op, label.Spaced t.life))

theorem Logged.ordered {t : Tunn P} {ledger : Ledger} (h : Logged Spaced t ledger) :
    t.Visited ∧ t.life.Ordered ledger := by
  refine h.invariant Life.Ordered ?_ ?_ ?_
  · intro l hblank
    constructor <;> simp [hblank.ring]
  · intro label l l' ledger hstep hsilent hordered
    exact hordered.shrink (silent_step hstep hsilent).2 rfl rfl
  · intro t env op label l' ledger hspaced hevent hstep hordered
    exact hordered.step hstep (hspaced label hevent)

/-! ### Two handshakes, one second apart -/

def firstHandshake : ByteHandshake := byteHandshake byteHome bytePeer 1 5

def secondHandshake : ByteHandshake := byteHandshake firstHandshake.home firstHandshake.peer 2 9

/-- Both handshakes are answered, and the peer confirms the second one. -/
def confirmedSecond : Tunn bytePrimitives × Ledger :=
  Ledger.play
    [(byteEnv 1 6, byteReceive firstHandshake.initiation),
      (byteEnv 2 10, byteReceive secondHandshake.initiation),
      (byteEnv 2 10, byteReceive secondHandshake.keepalive)] (byteHome, {})

/-- The first session is confirmed and the timers are polled before the second. -/
def polledBetween : Tunn bytePrimitives × Ledger :=
  Ledger.play
    [(byteEnv 1 6, byteReceive firstHandshake.initiation),
      (byteEnv 1 6, byteReceive firstHandshake.keepalive),
      (byteEnv 2 6, .updateTimers byteBuffer .UNBOUNDED),
      (byteEnv 2 10, byteReceive secondHandshake.initiation)] (byteHome, {})

theorem confirmedSecond_logged :
    Logged (fun _ _ _ => True) confirmedSecond.1 confirmedSecond.2 :=
  (Logged.new _ (byteTunn_isNew 1 6 1)).play _ ⟨trivial, trivial, trivial, trivial⟩

theorem polledBetween_logged : Logged Spaced polledBetween.1 polledBetween.2 :=
  (Logged.new _ (byteTunn_isNew 1 6 1)).play _ (by decide +kernel)

/-! ### What is selected -/

namespace Tunn

variable {t : Tunn P} {ledger : Ledger} {env : Env P} {source : Option Source}
  {datagram dst : Bytes} {budget : OutputBudget}

/-- Answering an initiation leaves the selection and its slot alone. -/
theorem initiation_keeps_selected {init : AuthenticatedInit P} (hne : datagram ≠ [])
    (haccepted : t.accepted env source datagram dst budget = some (.handshakeInit init)) :
    let t' := t.after env (.decapsulate source datagram dst budget)
    t'.current = t.current ∧ t'.selected = t.selected := by
  intro t'
  obtain ⟨-, ephemeral, hlife⟩ := accepted_life hne haccepted
  refine ⟨congrArg Life.current hlife, ?_⟩
  rw [← life_selected, hlife, selected_committed_init]

/-- Accepting a response leaves its session selected. -/
theorem response_selects (hbehind : t.life.StampsBehind) {response : AuthenticatedResponse P}
    (hne : datagram ≠ [])
    (haccepted : t.accepted env source datagram dst budget = some (.handshakeResponse response)) :
    let t' := t.after env (.decapsulate source datagram dst budget)
    t'.current = response.session.receivingIndex.toNat ∧
      t'.selected = some response.session.advanced := by
  intro t'
  obtain ⟨-, ephemeral, hlife⟩ := accepted_life hne haccepted
  have hcurrent : t'.life.current = response.session.receivingIndex.toNat := by
    rw [hlife]
    exact (hbehind.retire _).select_store response.session.advanced
  refine ⟨hcurrent, ?_⟩
  rw [← life_selected, Life.selected, hcurrent, hlife, committed, ring_select, ring_store]
  exact if_pos rfl

end Tunn

/-- No transport is sent on an unconfirmed session. In every run the selected slot is
empty, or its session was made from a response to our own initiation, or from a peer's
initiation and has authenticated a transport packet. Answering an initiation neither
replaces, removes nor deselects it, and accepting a response selects the new session. -/
theorem selected_confirmed {t : Tunn P} {ledger : Ledger}
    (h : Logged (fun _ _ _ => True) t ledger) :
    (t.selected = none ∨ ledger.origin (slotOf t.current) = .response ∨
      ledger.origin (slotOf t.current) = .confirmedInitiation) ∧
    (∀ env source datagram dst budget init, datagram ≠ [] →
      t.accepted env source datagram dst budget = some (.handshakeInit init) →
      let t' := t.after env (.decapsulate source datagram dst budget)
      t'.current = t.current ∧ t'.selected = t.selected) ∧
    (∀ env source datagram dst budget response, datagram ≠ [] →
      t.accepted env source datagram dst budget = some (.handshakeResponse response) →
      let t' := t.after env (.decapsulate source datagram dst budget)
      t'.current = response.session.receivingIndex.toNat ∧
        t'.selected = some response.session.advanced) := by
  obtain ⟨hvisited, hconfirmed⟩ := h.confirmed
  refine ⟨?_, ?_, ?_⟩
  · cases hselected : t.selected with
    | none => exact .inl rfl
    | some session =>
      have hne := hconfirmed (Option.isSome_of_eq_some hselected)
      right
      cases horigin : ledger.origin (slotOf t.current) with
      | response => exact .inl rfl
      | initiation => exact absurd horigin hne
      | confirmedInitiation => exact .inr rfl
  · intro env source datagram dst budget init hne haccepted
    exact Tunn.initiation_keeps_selected hne haccepted
  · intro env source datagram dst budget response hne haccepted
    exact Tunn.response_selects hvisited.stampsBehind hne haccepted

theorem selected_confirmed_second : confirmedSecond.1.selected.isSome ∧
    (confirmedSecond.1.selected = none ∨
      confirmedSecond.2.origin (slotOf confirmedSecond.1.current) = .response ∨
      confirmedSecond.2.origin (slotOf confirmedSecond.1.current) = .confirmedInitiation) :=
  ⟨by decide +kernel, (selected_confirmed confirmedSecond_logged).1⟩

/-- A transport packet moves the selection off a session that is still there only to one
stored later. -/
def SelectsLater (t : Tunn P) (ledger : Ledger) : Prop :=
  ∀ env source datagram dst budget receiverIdx plaintext session, datagram ≠ [] →
    t.accepted env source datagram dst budget = some (.data receiverIdx plaintext session) →
    let t' := t.after env (.decapsulate source datagram dst budget)
    (t'.sessions (slotOf t.current)).isSome → slotOf t'.current ≠ slotOf t.current →
      ledger.serial (slotOf t.current) < ledger.serial (slotOf t'.current)

/-- Sending never falls back to an older key in a run that polls the timers between any
two establishments. -/
theorem receive_selects_later {t : Tunn P} {ledger : Ledger} (h : Logged Spaced t ledger) :
    SelectsLater t ledger := by
  intro env source datagram dst budget receiverIdx plaintext session hne haccepted t' hthere hmoved
  obtain ⟨-, hordered⟩ := h.ordered
  obtain ⟨⟨stored, -, hstored, -⟩, ephemeral, hlife⟩ := Tunn.accepted_life hne haccepted
  have hordered := hordered.put session (Option.isSome_of_eq_some hstored)
  have hsessions : t'.sessions = (t.life.put (slotOf receiverIdx.toNat) session).ring := by
    rw [← ring_select _ receiverIdx.toNat]
    exact congrArg Life.ring hlife
  have hcurrent : t'.current = ((t.life.put (slotOf receiverIdx.toNat) session).select
      receiverIdx.toNat).current := congrArg Life.current hlife
  rw [hsessions] at hthere
  rw [hcurrent] at hmoved ⊢
  refine hordered.select_later ?_ hthere hmoved
  rw [ring_put, if_pos rfl]
  rfl

/-- After a poll the second confirmation moves the selection forward. -/
theorem receive_selects_later_polled : SelectsLater polledBetween.1 polledBetween.2 :=
  receive_selects_later polledBetween_logged

/-- The confirmation of the first session, delayed, takes the selection back to it. -/
theorem delayed_keepalive_selects_older :
    ∃ (t : Tunn bytePrimitives) (ledger : Ledger),
      Logged (fun _ _ _ => True) t ledger ∧ ¬ SelectsLater t ledger := by
  refine ⟨confirmedSecond.1, confirmedSecond.2, confirmedSecond_logged, fun hlater => ?_⟩
  have hkind : (confirmedSecond.1.accepted (byteEnv 2 10) none firstHandshake.keepalive byteBuffer
      .UNBOUNDED).map Authenticated.kind = some .transport := by
    decide +kernel
  obtain ⟨receiverIdx, plaintext, session, haccepted⟩ := Authenticated.of_kind_transport hkind
  exact absurd (hlater _ _ _ _ _ _ _ _ (by decide +kernel) haccepted (by decide +kernel)
    (by decide +kernel)) (by decide +kernel)


end BoringTun

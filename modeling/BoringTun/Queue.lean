import BoringTun.Tunn.OneByte
import BoringTun.Tunn.Simulation

/-!
What queued packets wait for.

A packet is queued behind a handshake that is on its way. It stays driven as long as a
session takes over from that handshake and is not lost (`queue_driven`). Answering the
peer's initiation ends the handshake without selecting a session, and the packet stays
behind (`initiation_strands_queue`).
-/

namespace BoringTun

open Life

variable {P : Primitives}

/-- What is queued will still be sent without a further write: a selected session can send,
a burst is pending, or an initiation waits in the slot the retransmission timer reads. -/
def Tunn.Driven (t : Tunn P) : Prop :=
  t.packetQueue ≠ [] → t.hasCurrentSession = true ∨ t.pendingAmneziaJunk.isSome = true ∨
    ∃ sent, t.handshake.state = .initSent sent

namespace Life

/-! ### One step -/

/-- Nothing is queued, or a handshake or a session is there for it. -/
def Carried (l : Life P) : Prop := l.queue = [] ∨ l.Underway ∨ l.selected.isSome

/-- After a selection a session that is there is selected. -/
theorem selected_select {l : Life P} {index : Nat} (h : (l.ring (slotOf index)).isSome) :
    (l.select index).selected.isSome := by
  unfold select
  split
  · next heq =>
    rw [selected, heq]
    exact h
  · split
    · exact h
    · next hstay =>
      rw [not_or] at hstay
      exact Option.isSome_iff_ne_none.mpr (by simpa using hstay.1)

/-- What a tunnel does by itself leaves nothing behind. -/
theorem Carried.still {label : Label} {l l' : Life P} (h : l.Carried) (hstep : Step label l l')
    (hstill : label.Still) : l'.Carried := by
  cases hstep with
  | tick hnow => exact h
  | expire hnow => exact .inl rfl
  | initiate hosts => exact .inr (.inl (.inr ⟨_, rfl⟩))
  | prepare => exact .inr (.inl (.inl rfl))
  | spend hsent => exact .inr (.inl (.inr ⟨_, hsent⟩))
  | enqueue hunderway => exact .inr (.inl hunderway)
  | drain hselected => exact .inr (.inr hselected)
  | _ => cases hstill

theorem Carried.serves {l l' : Life P} (h : l.Carried) (hserves : Serves l l') : l'.Carried := by
  obtain ⟨l₁, hsteps, hlast⟩ := hserves
  have hstill := hsteps.invariant (fun _ _ _ hstill hstep hl => Carried.still hl hstep hstill) h
  rcases hlast with rfl | hsend
  · exact hstill
  · cases hsend with
    | send hselected hnonce =>
      right; right
      rw [selected, ring_put, if_pos]
      · rfl
      · rfl

/-- Every session can still send. -/
def Unexhausted (l : Life P) : Prop :=
  ∀ slot session, l.ring slot = some session → session.sendingExhausted = false

/-- Every session can still send twice. -/
def Spare (l : Life P) : Prop :=
  ∀ slot session, l.ring slot = some session →
    session.sendingKeyCounter + 1 < Session.REJECT_AFTER_MESSAGES

theorem spare_of_ring_none {l : Life P} (h : ∀ slot, (l.ring slot).isNone) : l.Spare := by
  intro slot session hstored
  have hnone := h slot
  rw [hstored] at hnone
  cases hnone

theorem Spare.unexhausted {l : Life P} (h : l.Spare) : l.Unexhausted := by
  intro slot session hstored
  have hlt := h slot session hstored
  rw [Session.sendingExhausted, decide_eq_false_iff_not]
  exact Nat.not_le.mpr (Nat.lt_of_succ_lt hlt)

/-- Sessions that were there before have not sent. -/
theorem Spare.still {label : Label} {l l' : Life P} (h : l.Spare) (hstep : Step label l l')
    (hstill : label.Still) : l'.Spare := by
  cases hstep with
  | expire hnow => nofun
  | tick hnow => exact h
  | initiate hosts => exact h
  | prepare => exact h
  | spend hsent => exact h
  | enqueue hunderway => exact h
  | drain hselected => exact h
  | _ => cases hstill

theorem Spare.age {l l' : Life P} (h : l.Spare) (hstep : Step .age l l') : l'.Spare := by
  cases hstep with
  | age old =>
    intro slot session hstored
    dsimp only at hstored
    split at hstored
    · cases hstored
    · exact h slot session hstored

/-- One step sends once at most, and a new session has nonces. -/
theorem Spare.step {label : Label} {l l' : Life P} (h : l.Spare) (hstep : Step label l l') :
    l'.Unexhausted := by
  cases hstep with
  | age old => exact (h.age (.age old)).unexhausted
  | expire hnow =>
    intro slot session hstored
    cases hstored
  | @send _ sender hselected hnonce =>
    intro slot session hstored
    rw [ring_put] at hstored
    split at hstored
    · cases hstored
      rw [Session.sendingExhausted, decide_eq_false_iff_not]
      exact Nat.not_le.mpr (h _ sender hselected)
    · exact h.unexhausted slot session hstored
  | respond hosts hauth hslot =>
    intro slot session hstored
    rw [ring_answer] at hstored
    split at hstored
    · cases hstored
      rfl
    · exact h.unexhausted slot session hstored
  | complete hosts hauth hsession =>
    intro slot session hstored
    rw [ring_select, ring_store, ring_retire] at hstored
    split at hstored
    · cases hstored
      subst hsession
      rfl
    · exact h.unexhausted slot session hstored
  | @receive _ receiver mark hstored' =>
    intro slot session hstored
    rw [ring_select, ring_put] at hstored
    split at hstored
    · cases hstored
      exact h.unexhausted _ receiver hstored'
    · exact h.unexhausted slot session hstored
  | rekey keep hpeer hkeep =>
    cases keep with
    | true => exact h.unexhausted
    | false =>
      intro slot session hstored
      cases hstored
  | _ => exact h.unexhausted

theorem Spare.serves {l l' : Life P} (h : l.Spare) (hserves : Serves l l') : l'.Unexhausted := by
  obtain ⟨l₁, hsteps, hlast⟩ := hserves
  have hstill := hsteps.invariant (fun _ _ _ hstill hstep hl => Spare.still hl hstep hstill) h
  rcases hlast with rfl | hsend
  · exact hstill.unexhausted
  · exact hstill.step hsend

end Life

/-! ### One call -/

namespace Tunn

variable {t : Tunn P}

/-- Calls that do not take from queued packets what they wait for: no initiation of the
peer is accepted before a session is selected, and neither a poll nor a new key drops the
selected session, unless nothing is queued or, for the latter, a handshake is on its way. -/
def Keeps (t : Tunn P) (env : Env P) : Op P → Prop
  | .decapsulate source datagram dst budget =>
    ∀ init ∈ t.accepted env source datagram dst budget, isHandshakeInit init = true →
      t.packetQueue = [] ∨ t.selected.isSome
  | .updateTimers _ _ =>
    t.packetQueue = [] ∨ t.life.Underway ∨ t.agedAt env (slotOf t.current) = false
  | .setPresharedKey presharedKey =>
    t.packetQueue = [] ∨ t.life.Underway ∨ t.handshake.params.effectivePresharedKey =
      { t.handshake.params with presharedKey := presharedKey }.effectivePresharedKey
  | .setStaticPrivate .. => t.packetQueue = [] ∨ t.life.Underway
  | _ => True

/-- What the selected slot held is not needed, or still there. -/
theorem carried_of_ring {l l' : Life P} (h : l.Carried) (hqueue : l'.queue = l.queue)
    (hunderway : l.Underway → l'.Underway)
    (hkeeps : l.queue = [] ∨ l.Underway ∨ l'.selected = l.selected) : l'.Carried := by
  rcases hkeeps with hempty | hway | hsame
  · exact .inl (hqueue.trans hempty)
  · exact .inr (.inl (hunderway hway))
  · rcases h with hempty | hway | hsome
    · exact .inl (hqueue.trans hempty)
    · exact .inr (.inl (hunderway hway))
    · exact .inr (.inr (hsame ▸ hsome))

theorem after_carried (hset : t.life.Settled) (hcarried : t.life.Carried) {env : Env P}
    {op : Op P} (hkeeps : t.Keeps env op) : (t.after env op).life.Carried := by
  have htransition := after_transition hset env op
  generalize (t.after env op).life = l at htransition
  cases htransition with
  | serve hevent h => exact hcarried.serves h
  | poll h =>
    have hbegun : (t.beginPoll env).2.1.life.Carried := by
      refine carried_of_ring hcarried rfl id ?_
      rcases hkeeps with hempty | hway | hyoung
      · exact .inl hempty
      · exact .inr (.inl hway)
      · have hselected := beginPoll_selected (t := t) env
        rw [hyoung] at hselected
        exact .inr (.inr hselected)
    exact hbegun.serves h
  | @commit source datagram dst budget packet ephemeral hne haccepted hgen =>
    cases packet with
    | handshakeInit init =>
      rcases hkeeps _ haccepted rfl with hempty | hsome
      · exact .inl hempty
      · right; right
        rw [selected_committed_init]
        exact hsome
    | handshakeResponse response =>
      right; right
      apply selected_select
      rw [ring_store, if_pos]
      · rfl
      · rfl
    | cookieReply cookie => exact hcarried
    | data receiverIdx plaintext session =>
      right; right
      apply selected_select
      rw [ring_put, if_pos rfl]
      rfl
  | presharedKey =>
    rw [setPresharedKey_life]
    split
    · exact hcarried
    · next hchanged =>
      rcases hkeeps with hempty | hway | hsame
      · exact .inl hempty
      · exact .inr (.inl hway)
      · exact absurd hsame hchanged
  | staticPrivate =>
    rcases hkeeps with hempty | hway
    · exact .inl hempty
    · exact .inr (.inl hway)

theorem after_unexhausted (hset : t.life.Settled) (hspare : t.life.Spare) (env : Env P)
    (op : Op P) : (t.after env op).life.Unexhausted := by
  have htransition := after_transition hset env op
  generalize (t.after env op).life = l at htransition
  cases htransition with
  | serve hevent h => exact hspare.serves h
  | poll h =>
    obtain ⟨ticked, htick, hage⟩ := beginPoll_steps (t := t) env
    exact ((hspare.still htick trivial).age hage).serves h
  | @commit source datagram dst budget packet ephemeral hne haccepted hgen =>
    have hstep := committed_step hgen ephemeral
    split at hstep
    · exact hspare.step hstep
    · rw [hstep]
      exact hspare.unexhausted
  | presharedKey => exact hspare.step (setPresharedKey_step _)
  | staticPrivate => exact hspare.step (setStaticPrivate_step _ _ _)

end Tunn

/-! ### Whole runs -/

/-- A tunnel some calls after a constructor returned it, none of which took from queued
packets what they wait for, and each of which found two nonces left in every session. -/
def Tunn.Kept (t : Tunn P) : Prop :=
  Reachable Tunn.IsNew (fun t t' => ∃ env op, t.Keeps env op ∧ t.life.Spare ∧ t' = t.after env op) t

/-- A write on a new tunnel, and the tunnel behind it. -/
def byteWrite (t : Tunn bytePrimitives) : TunnResult × Tunn bytePrimitives :=
  t.run (byteEnv 1 5) (.encapsulate [69] byteBuffer .UNBOUNDED)

/-- The peer answers the initiation of the write. -/
def answeredWrite : Tunn bytePrimitives :=
  ((byteWrite byteHome).2.deliver (byteEnv 1 5)
    (bytePeer.deliver (byteEnv 1 4) (byteWrite byteHome).1.datagram).1.datagram).2

/-- Two datagrams of junk go before an initiation. -/
def junkHome : Tunn bytePrimitives :=
  byteHome.after (byteEnv 1 5) (.setObfuscation .default
    { preHandshakeJunk := { packetCount := 2, packetSizeMin := 1, packetSizeMax := 1 } })

/-- The peer's initiation comes while the junk of the write is still going out. -/
def interruptedWrite : Tunn bytePrimitives :=
  ((byteWrite junkHome).2.deliver (byteEnv 1 7)
    (byteHandshake byteHome bytePeer 1 4).initiation).2

/-- In every run whose calls keep what queued packets wait for, and find every session
with two nonces left, queued packets stay driven. -/
theorem queue_driven {t : Tunn P} (h : t.Kept) : t.Driven := by
  have hinv : t.life.Settled ∧ t.life.Carried ∧ t.life.Unexhausted := by
    refine Reachable.invariant h (fun t => t.life.Settled ∧ t.life.Carried ∧ t.life.Unexhausted) ?_ ?_
    · intro t hnew
      refine ⟨hnew.blank.settled, .inl hnew.blank.queue, fun slot session hstored => ?_⟩
      rw [hnew.blank.ring] at hstored
      cases hstored
    · rintro t _ ⟨env, op, hkeeps, hspare, rfl⟩ ⟨hset, hcarried, -⟩
      exact ⟨Tunn.after_invariant (fun _ _ _ => settled_step) hset hset env op,
        Tunn.after_carried hset hcarried hkeeps, Tunn.after_unexhausted hset hspare env op⟩
  obtain ⟨-, hcarried, hunexhausted⟩ := hinv
  intro hqueue
  rcases hcarried with hempty | hway | hsome
  · exact absurd hempty hqueue
  · exact .inr hway
  · left
    obtain ⟨session, hsession⟩ := Option.isSome_iff_exists.mp hsome
    have hselected : t.selected = some session := hsession
    rw [Tunn.hasCurrentSession, hselected]
    simp [hunexhausted _ session hsession]

theorem queue_driven_answered :
    answeredWrite.packetQueue = [[69]] ∧ answeredWrite.Kept ∧ answeredWrite.Driven := by
  have hnew : byteHome.Kept := Reachable.base (byteTunn_isNew 1 6 1)
  have hwritten : (byteWrite byteHome).2.Kept := by
    refine Reachable.step hnew ⟨byteEnv 1 5, .encapsulate [69] byteBuffer .UNBOUNDED, trivial,
      spare_of_ring_none ?_, rfl⟩
    decide +kernel
  have hkept : answeredWrite.Kept := by
    refine Reachable.step hwritten
      ⟨byteEnv 1 5, byteReceive _, ?_, spare_of_ring_none ?_, rfl⟩
    · show ∀ init ∈ _, _
      decide +kernel
    · decide +kernel
  exact ⟨by decide +kernel, hkept, queue_driven hkept⟩

/-- Accepting the peer's initiation drops the burst the queued packet waits behind, and
selects no session for it. -/
theorem initiation_strands_queue : interruptedWrite.Visited ∧ ¬ interruptedWrite.Driven := by
  constructor
  · exact (((Reachable.base (byteTunn_isNew 1 6 1)).step ⟨_, _, rfl⟩).step ⟨_, _, rfl⟩).step
      ⟨_, _, rfl⟩
  · intro hdriven
    have hqueue : interruptedWrite.packetQueue ≠ [] := by decide +kernel
    have hsession : interruptedWrite.hasCurrentSession = false := by decide +kernel
    have hburst : interruptedWrite.pendingAmneziaJunk.isSome = false := by decide +kernel
    rcases hdriven hqueue with hcurrent | hpending | ⟨sent, hsent⟩
    · exact absurd (hcurrent.symm.trans hsession) (by decide)
    · exact absurd (hpending.symm.trans hburst) (by decide)
    · have hidle : interruptedWrite.handshake.isInProgress = false := by decide +kernel
      rw [Handshake.isInProgress, hsent] at hidle
      cases hidle

end BoringTun

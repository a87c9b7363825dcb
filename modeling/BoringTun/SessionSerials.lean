import BoringTun.Lib.Roll
import BoringTun.Tunn.Moves
import BoringTun.Tunn.OneByte
import BoringTun.Tunn.OpReport

/-!
The identities in operation reports: which session is which, and what was sent.

A session is told by the call that stored it. The ring and the serials of the report follow the
roll of these calls (`Recorded.numbers`), so that before the counter saturates two serials are
equal exactly if they are of one session. The kind of an output is that of the bytes, for a
burst by `Scripted`: what is left of it was generated as imitation datagrams.

* `Moves.slots`: what a call stores, keeps and drops;
* `Moves.produces`: what a call sends is of the kind it notes.
-/

namespace BoringTun

variable {P : Primitives}

/-- The same session after use. -/
def Session.Continues (session session' : Session P) : Prop :=
  ∃ counter mark, session' =
    { session with sendingKeyCounter := counter, receivingKeyCounter := mark }

theorem Session.Continues.refl (session : Session P) : session.Continues session := ⟨_, _, rfl⟩

theorem Session.Continues.trans {s s' s'' : Session P} (h : s.Continues s')
    (h' : s'.Continues s'') : s.Continues s'' := by
  obtain ⟨_, _, rfl⟩ := h
  obtain ⟨_, _, rfl⟩ := h'
  exact ⟨_, _, rfl⟩

namespace Core

variable {c c₁ c' : Core P} {result : TunnResult} {payload : Bytes} {force : Bool}

/-! ### The slots -/

/-- The slot a call stores a session in. -/
def storedSlot (c : Core P) : Action P → Option (Fin N_SESSIONS)
  | .accept (.handshakeInit _) =>
    some (slotOf (Handshake.succIndexAvoiding c.index (c.current % N_SESSIONS)).toNat)
  | .accept (.handshakeResponse response) => some (slotOf response.session.receivingIndex.toNat)
  | _ => none

/-- What is left in a slot that nothing is stored in. -/
inductive Keeps (c c' : Core P) (slot : Fin N_SESSIONS) : Prop where
  | vacant (hold : c.ring slot = none) (hring : c'.ring slot = none)
    (hserial : c'.serial slot = c.serial slot) : Keeps c c' slot
  | cleared (hring : c'.ring slot = none) (hserial : c'.serial slot = 0) : Keeps c c' slot
  | held {session session' : Session P} (hold : c.ring slot = some session)
    (hring : c'.ring slot = some session') (hsame : session.Continues session')
    (hserial : c'.serial slot = c.serial slot) : Keeps c c' slot

theorem Keeps.of_eq {slot : Fin N_SESSIONS} (hring : c'.ring slot = c.ring slot)
    (hserial : c'.serial slot = c.serial slot) : c.Keeps c' slot := by
  cases hold : c.ring slot with
  | none => exact .vacant hold (hring.trans hold) hserial
  | some session => exact .held hold (hring.trans hold) (.refl session) hserial

theorem Keeps.trans {slot : Fin N_SESSIONS} (h : c.Keeps c₁ slot) (h' : c₁.Keeps c' slot) :
    c.Keeps c' slot := by
  cases h' with
  | cleared hring' hserial' => exact .cleared hring' hserial'
  | vacant hold' hring' hserial' =>
    cases h with
    | vacant hold hring hserial => exact .vacant hold hring' (hserial'.trans hserial)
    | cleared hring hserial => exact .cleared hring' (hserial'.trans hserial)
    | held _ hring => exact absurd (hring.symm.trans hold') nofun
  | held hold' hring' hsame' hserial' =>
    cases h with
    | vacant _ hring | cleared hring => exact absurd (hring.symm.trans hold') nofun
    | held hold hring hsame hserial =>
      obtain rfl := Option.some.inj (hring.symm.trans hold')
      exact .held hold hring' (hsame.trans hsame') (hserial'.trans hserial)

/-- What a call does to the slots. -/
structure Slots (c : Core P) (stored : Option (Fin N_SESSIONS)) (c' : Core P) : Prop where
  filled : ∀ slot, stored = some slot →
    (c'.ring slot).isSome = true ∧ c'.serial slot = c.nextSerial
  kept : ∀ slot, stored ≠ some slot → c.Keeps c' slot
  next : c'.nextSerial =
    if stored.isSome then min (c.nextSerial + 1) (2 ^ 64 - 1) else c.nextSerial
  changed : c'.changed = c.changed

theorem Slots.of_kept (hkept : ∀ slot, c.Keeps c' slot) (hnext : c'.nextSerial = c.nextSerial)
    (hchanged : c'.changed = c.changed) : c.Slots none c' :=
  ⟨nofun, fun slot _ => hkept slot, hnext, hchanged⟩

theorem Slots.of_eq (hring : c'.ring = c.ring) (hserial : c'.serial = c.serial)
    (hnext : c'.nextSerial = c.nextSerial) (hchanged : c'.changed = c.changed) :
    c.Slots none c' :=
  .of_kept (fun slot => .of_eq (congrFun hring slot) (congrFun hserial slot)) hnext hchanged

theorem Slots.trans (h : c.Slots none c₁) (h' : c₁.Slots none c') : c.Slots none c' :=
  .of_kept (fun slot => (h.kept slot nofun).trans (h'.kept slot nofun)) (h'.next.trans h.next)
    (h'.changed.trans h.changed)

theorem Still.slots (h : c.Still c') : c.Slots none c' :=
  .of_eq h.ring h.serial h.nextSerial h.changed

/-- A session in the ring is replaced by itself after use. -/
theorem slots_of_update {slot : Fin N_SESSIONS} {session session' : Session P}
    (hold : c.ring slot = some session) (hsame : session.Continues session')
    (hring : c'.ring = Function.update c.ring slot (some session'))
    (hserial : c'.serial = c.serial) (hnext : c'.nextSerial = c.nextSerial)
    (hchanged : c'.changed = c.changed) : c.Slots none c' := by
  refine .of_kept (fun other => ?_) hnext hchanged
  by_cases heq : other = slot
  · subst heq
    refine .held hold ?_ hsame (congrFun hserial other)
    rw [hring, Function.update_self]
  · refine .of_eq ?_ (congrFun hserial other)
    rw [hring, Function.update_of_ne heq]

/-- A session is stored, and what else the call does leaves the ring alone. -/
theorem store_slots {slot : Fin N_SESSIONS} {session : Session P}
    (hring : c'.ring = Function.update c.ring slot (some session))
    (hserial : c'.serial = Function.update c.serial slot c.nextSerial)
    (hnext : c'.nextSerial = min (c.nextSerial + 1) (2 ^ 64 - 1))
    (hchanged : c'.changed = c.changed) : c.Slots (some slot) c' := by
  refine ⟨?_, ?_, hnext, hchanged⟩
  · rintro _ ⟨⟩
    rw [hring, hserial, Function.update_self, Function.update_self]
    exact ⟨rfl, rfl⟩
  · intro other hne
    have hother : other ≠ slot := fun heq => hne (congrArg some heq.symm)
    refine .of_eq ?_ ?_
    · rw [hring, Function.update_of_ne hother]
    · rw [hserial, Function.update_of_ne hother]

theorem age_slots (c : Core P) (now : Nat) : c.Slots none (c.age now) := by
  refine .of_kept (fun slot => ?_) rfl rfl
  cases haged : c.isAged now slot with
  | false =>
    refine .of_eq ?_ ?_
    · exact if_neg (by rw [haged]; exact Bool.false_ne_true)
    · exact if_neg (by rw [haged]; exact Bool.false_ne_true)
  | true =>
    have hring : (c.age now).ring slot = none := if_pos haged
    cases hold : c.ring slot with
    | none =>
      refine .vacant hold hring (if_neg ?_)
      rw [haged, hold]
      exact Bool.false_ne_true
    | some session =>
      refine .cleared hring (if_pos ?_)
      rw [haged, hold]
      rfl

theorem Change.slots (h : Change c c') : c.Slots none c' := by
  cases h with
  | readied h | emitted h => exact h.still.slots
  | delivered hselected => exact slots_of_update hselected ⟨_, _, rfl⟩ rfl rfl rfl rfl
  | expired => exact .of_kept (fun slot => .cleared rfl rfl) rfl rfl
  | _ => exact .of_eq rfl rfl rfl rfl

theorem Changes.slots (h : c.Changes c') : c.Slots none c' := by
  induction h with
  | refl => exact (Still.refl c).slots
  | tail _ hlast ih => exact ih.trans hlast.slots

theorem Accepts.slots {packet : Authenticated P} (h : c.Accepts packet result c') :
    c.Slots (c.storedSlot (.accept packet)) c' := by
  cases h with
  | answered hindex =>
    dsimp only [storedSlot]
    rw [← hindex]
    exact store_slots rfl rfl rfl rfl
  | completed _ hindex =>
    dsimp only [storedSlot]
    rw [← hindex]
    rw [select_eq]
    unfold retire
    split <;> exact store_slots rfl rfl rfl rfl
  | cookie => exact .of_eq rfl rfl rfl rfl
  | @data _ _ _ _ mark _ _ _ _ hstored hmarked =>
    rw [select_eq]
    exact slots_of_update hstored ⟨_, mark, hmarked⟩ rfl rfl rfl rfl

/-- A call stores at most one session, under the next serial; what else stays in the ring stays
under its own. -/
theorem Moves.slots {action : Action P} (h : c.Moves action result c') :
    c.Slots (c.storedSlot action) c' := by
  cases h with
  | submits h | drains h | demands h => exact h.changes.slots
  | polls _ h => exact (c.age_slots _).trans h.changes.slots
  | accepts h => exact h.slots
  | ignores | reconfigures | keeps => exact .of_eq rfl rfl rfl rfl
  | declines => exact (Still.refl c).slots
  | rekeys => exact .of_kept (fun slot => .cleared rfl rfl) rfl rfl

/-! ### The kind of an output -/

/-- What is left of a burst was generated as imitation datagrams. -/
def Scripted (c : Core P) : Prop :=
  ∀ pending ∈ c.burst, ∃ (cfg : AmneziaConfig) (rng : Rng),
    pending.imitationDatagrams <:+ (cfg.preHandshakeImitationDatagrams P rng).1

theorem Readies.scripted (h : c.Readies force c') (hscript : c.Scripted) : c'.Scripted := by
  cases h with
  | pending | direct => exact hscript
  | prepared _ _ _ hopens =>
    rintro _ ⟨⟩
    obtain ⟨rng, hdatagrams⟩ := hopens.datagrams
    exact ⟨c.amnezia, rng, hdatagrams ▸ List.suffix_rfl⟩

theorem Emits.scripted {wire : Bytes} (h : c.Emits wire c') (hscript : c.Scripted) :
    c'.Scripted := by
  cases h with
  | imitation hburst hnext =>
    rintro _ ⟨⟩
    obtain ⟨cfg, rng, hsuffix⟩ := hscript _ hburst
    rw [hnext] at hsuffix
    exact ⟨cfg, rng, (List.suffix_cons _ _).trans hsuffix⟩
  | junk hburst =>
    rintro _ ⟨⟩
    obtain ⟨cfg, rng, -⟩ := hscript _ hburst
    exact ⟨cfg, rng, List.nil_suffix⟩
  | deferred => exact nofun
  | direct hnone =>
    intro pending hmem
    exact absurd (hmem.symm.trans hnone) nofun

theorem Changes.scripted (h : c.Changes c') (hscript : c.Scripted) : c'.Scripted := by
  induction h with
  | refl => exact hscript
  | tail _ hlast ih =>
    cases hlast with
    | readied h | emitted h => exact h.scripted ih
    | expired => exact nofun
    | _ => exact ih

theorem Accepts.scripted {packet : Authenticated P} (h : c.Accepts packet result c')
    (hscript : c.Scripted) : c'.Scripted := by
  cases h with
  | answered => exact nofun
  | completed =>
    rw [select_eq]
    exact nofun
  | cookie => exact hscript
  | data =>
    rw [select_eq]
    exact hscript

theorem Moves.scripted {action : Action P} (h : c.Moves action result c') (hscript : c.Scripted) :
    c'.Scripted := by
  cases h with
  | submits h | drains h | demands h | polls _ h => exact h.changes.scripted hscript
  | accepts h => exact h.scripted hscript
  | ignores | declines | keeps | rekeys => exact hscript
  | reconfigures _ hburst =>
    rcases hburst with rfl | ⟨datagrams, remaining, hdatagrams, rfl⟩
    · exact hscript
    · intro _ hmem
      obtain ⟨_, hold, rfl⟩ := Option.mem_map.mp hmem
      rcases hdatagrams with rfl | ⟨rng, rfl⟩
      · obtain ⟨cfg, rng, -⟩ := hscript _ hold
        exact ⟨cfg, rng, List.nil_suffix⟩
      · exact ⟨_, rng, List.suffix_rfl⟩

/-- What carries no payload is not for a session. -/
theorem Produces.control {c₁ : Core P} {offered offered' : List Bytes}
    {left : Option PendingAmneziaJunk} {kind : OpReport.PacketKind} {wire : Bytes}
    (h : c₁.Produces offered left kind wire) (hempty : ∀ src ∈ offered, src = [])
    (hobf : c₁.obf = c.obf) (hamnezia : c₁.amnezia = c.amnezia) :
    c.Produces offered' left kind wire := by
  have hframes {kind : PacketKind} (hwire : c₁.Frames kind wire) : c.Frames kind wire := by
    rwa [Frames, hobf, hamnezia] at hwire
  cases h with
  | handshakeInitiation hwire => exact .handshakeInitiation (hframes hwire)
  | handshakeResponse hwire => exact .handshakeResponse (hframes hwire)
  | cookieReply hwire => exact .cookieReply (hframes hwire)
  | transportData _ hoffered hdata =>
    rw [hempty _ hoffered] at hdata
    cases hdata
  | @transportKeepalive session _ hwire =>
    rw [Carries, hobf, hamnezia] at hwire
    exact .transportKeepalive hwire
  | junk hleft hwire =>
    rw [Fills, hamnezia] at hwire
    exact .junk hleft hwire
  | imitation hleft hmem => exact .imitation hleft hmem

theorem Produces.of_carries {session : Session P} {offered : List Bytes} {src wire : Bytes}
    (hselected : c.selected = some session) (hoffered : src ∈ offered)
    (hwire : c.Carries session src wire) (left : Option PendingAmneziaJunk) :
    c.Produces offered left (transportKind src.isEmpty) wire := by
  cases src with
  | nil => exact .transportKeepalive hwire
  | cons b src => exact .transportData hselected hoffered rfl hwire

theorem Emits.produces {wire : Bytes} (h : c.Emits wire c') (hscript : c.Scripted) :
    c.Produces [] c'.burst c'.output wire := by
  cases h with
  | imitation hburst hnext =>
    obtain ⟨cfg, rng, hsuffix⟩ := hscript _ hburst
    rw [hnext] at hsuffix
    exact .imitation rfl (hsuffix.subset List.mem_cons_self)
  | junk _ _ _ hwire => exact .junk rfl hwire
  | deferred _ _ _ hwire | direct _ hwire => exact .handshakeInitiation hwire

theorem Drives.produces {wire : Bytes} (h : c.Drives force (.writeToNetwork wire) c')
    (hscript : c.Scripted) (offered : List Bytes) : c.Produces offered c'.burst c'.output wire := by
  cases h with
  | emitted hready hemits =>
    exact (hemits.produces (hready.scripted hscript)).control (by simp) hready.still.obf
      hready.still.amnezia

theorem Submits.produces {wire : Bytes} (h : c.Submits payload (.writeToNetwork wire) c')
    (hscript : c.Scripted) : c.Produces (payload :: c.queue) c'.burst c'.output wire := by
  cases h with
  | sent _ hselected hwire => exact .of_carries hselected List.mem_cons_self hwire _
  | queued _ hdrives => exact hdrives.produces hscript _

theorem Drains.produces {wire : Bytes} (h : c.Drains (.writeToNetwork wire) c')
    (hscript : c.Scripted) : c.Produces c.queue c'.burst c'.output wire := by
  cases h with
  | driven _ _ hdrives => exact hdrives.produces hscript _
  | sent _ hqueue hselected hwire => exact .of_carries hselected (by simp [hqueue]) hwire _

theorem Polls.produces {now : Nat} {wire : Bytes} (h : c.Polls now (.writeToNetwork wire) c')
    (hscript : c.Scripted) : c.Produces [] c'.burst c'.output wire := by
  cases h with
  | burst _ hdrives | retransmits _ _ _ hdrives => exact hdrives.produces hscript _
  | @initiates latched _ _ _ _ _ hdrives _ =>
    cases latched with
    | false => exact hdrives.produces hscript _
    | true =>
      have hspent : c.spendLatch.Scripted := hscript
      exact (hdrives.produces hspent []).control (by simp) rfl rfl
  | keepalive _ _ _ _ _ _ hsubmits =>
    cases hsubmits with
    | sent _ _ hwire => exact .transportKeepalive hwire
    | queued _ hdrives => exact (hdrives.produces hscript []).control (by simp) rfl rfl

theorem Accepts.produces {packet : Authenticated P} {wire : Bytes} {offered : List Bytes}
    (h : c.Accepts packet (.writeToNetwork wire) c') :
    c.Produces offered c'.burst c'.output wire := by
  cases h with
  | answered _ _ hwire => exact .handshakeResponse hwire
  | completed _ _ _ hwire => exact .transportKeepalive hwire
  | data _ _ hresult => cases hresult

/-- What the caller gives to be sent. -/
def Action.payloads : Action P → List Bytes
  | .submit payload => [payload]
  | _ => []

/-- What a call sends is of the kind it notes. -/
theorem Moves.produces {action : Action P} {wire : Bytes}
    (h : c.Moves action (.writeToNetwork wire) c') (hscript : c.Scripted) :
    c.Produces (action.payloads ++ c.queue) c'.burst c'.output wire := by
  cases h with
  | submits h | drains h => exact h.produces hscript
  | demands h => exact h.produces hscript _
  | polls _ h => exact (Polls.produces h hscript).control (by simp) rfl rfl
  | accepts h => exact h.produces
  | ignores hkind =>
    obtain ⟨rfl, hwire⟩ := hkind wire rfl
    exact .cookieReply hwire

/-! ### The roll of the sessions -/

/-- The slots that hold a session. -/
def occupied (c : Core P) (slot : Fin N_SESSIONS) : Bool := (c.ring slot).isSome

/-- The serials are those of the roll. -/
def Numbered (c : Core P) (roll : Roll (Fin N_SESSIONS)) : Prop :=
  roll.Numbers (2 ^ 64 - 1) c.occupied c.serial c.nextSerial

theorem Slots.numbered {stored : Option (Fin N_SESSIONS)} {roll : Roll (Fin N_SESSIONS)}
    (h : c.Slots stored c') (hroll : c.Numbered roll) :
    c'.Numbered (roll.step stored c'.occupied c'.serial) := by
  refine hroll.step h.filled ?_ h.next
  intro slot hslot
  unfold occupied
  cases h.kept slot hslot with
  | vacant hold hring hserial | held hold hring _ hserial =>
    rw [hold, hring]
    exact .inl ⟨rfl, hserial⟩
  | cleared hring hserial =>
    rw [hring]
    exact .inr ⟨rfl, hserial⟩

/-- A slot that the same store filled before and after a call holds the same session. -/
theorem Slots.continues {stored : Option (Fin N_SESSIONS)} {roll : Roll (Fin N_SESSIONS)}
    (h : c.Slots stored c') (hroll : c.Numbered roll) {slot : Fin N_SESSIONS} {put : Nat}
    (hbefore : roll.holder slot = some put)
    (hafter : (roll.step stored c'.occupied c'.serial).holder slot = some put) :
    ∃ session session', c.ring slot = some session ∧ c'.ring slot = some session' ∧
      session.Continues session' := by
  rcases Roll.Numbers.step_holder hafter with ⟨-, hput⟩ | ⟨hother, hoccupied, -⟩
  · exact absurd (hroll.holder_lt slot put hbefore) (Nat.not_lt_of_ge hput.ge)
  · unfold occupied at hoccupied
    cases h.kept slot hother with
    | vacant _ hring | cleared hring =>
      rw [hring] at hoccupied
      cases hoccupied
    | held hold hring hsame => exact ⟨_, _, hold, hring, hsame⟩

end Core

namespace Tunn

/-- What an observer notes of a call: the session it stored, and those it ended. -/
def noted (t : Tunn P) (env : Env P) (op : Op P) (roll : Roll (Fin N_SESSIONS)) :
    Roll (Fin N_SESSIONS) :=
  roll.step (t.core.storedSlot (t.action env op)) (t.after env op).core.occupied
    (t.after env op).opState.slotSerial

/-- A tunnel some calls and reports after a constructor returned it, with the roll of the
sessions it stored. -/
inductive Recorded : Tunn P → Roll (Fin N_SESSIONS) → Prop where
  | new {t : Tunn P} (h : t.IsNew) : Recorded t (.empty _)
  | call {t : Tunn P} {roll : Roll (Fin N_SESSIONS)} (h : Recorded t roll) (env : Env P)
    (op : Op P) : Recorded (t.after env op) (t.noted env op roll)
  /-- A packet its device accepted on the unconnected socket. -/
  | anonymous {t t' : Tunn P} {roll : Roll (Fin N_SESSIONS)} {env : Env P}
    {packet : Authenticated P} {datagram dst : Bytes} {hint : Option AmneziaImitationProtocol}
    (h : Recorded t roll) (hgen : t.Genuine dst .UNBOUNDED packet)
    (hcommit : t' =
      (t.commitWithImitationAndBudget env packet datagram hint dst .UNBOUNDED).2.1) :
    Recorded t' (roll.step (t.core.storedSlot (.accept packet)) t'.core.occupied
      t'.opState.slotSerial)
  | begun {t : Tunn P} {roll : Roll (Fin N_SESSIONS)} (h : Recorded t roll) :
    Recorded t.beginOp.2 roll

variable {t : Tunn P} {roll : Roll (Fin N_SESSIONS)}

theorem Recorded.numbered (h : t.Recorded roll) : t.core.Numbered roll := by
  induction h with
  | new hnew =>
    obtain ⟨_, _, _, _, hcore⟩ := hnew.core
    rw [hcore]
    exact .empty
  | @call t roll _ env op ih => exact (t.core_after env op).slots.numbered ih
  | @anonymous t _ roll env packet datagram dst hint _ hgen hcommit ih =>
    subst hcommit
    exact (t.core_commit env .UNBOUNDED hgen datagram hint).slots.numbered ih
  | begun _ ih => exact ih

theorem Recorded.scripted (h : t.Recorded roll) : t.core.Scripted := by
  induction h with
  | new hnew =>
    obtain ⟨_, _, _, _, hcore⟩ := hnew.core
    rw [hcore]
    exact nofun
  | @call t roll _ env op ih => exact (t.core_after env op).scripted ih
  | @anonymous t _ roll env packet datagram dst hint _ hgen hcommit ih =>
    subst hcommit
    exact (t.core_commit env .UNBOUNDED hgen datagram hint).scripted ih
  | begun _ ih => exact ih

theorem selectedSessionSerial_eq (h : t.core.Numbered roll)
    (hlimit : roll.given.length ≤ 2 ^ 64 - 1) :
    t.selectedSessionSerial = t.opState.slotSerial (slotOf t.current) := by
  unfold selectedSessionSerial
  split
  · rfl
  · next hempty =>
    by_contra hne
    exact hempty ((h.ne_zero_iff hlimit (slotOf t.current)).mp (Ne.symm hne))

/-- The report says that the selected session changed exactly if it did. -/
theorem reported_changed (h : t.Recorded roll) (hbefore : roll.given.length < 2 ^ 64 - 1)
    (env env' : Env P) (op : Op P) :
    (t.reported env env' op).2.1.events .currentSessionChanged = true ↔
      (t.beginOp.2.noted env op roll).holder (slotOf (t.reported env env' op).2.2.current) ≠
        roll.holder (slotOf t.current) := by
  have hslots := (t.beginOp.2.core_after env op).slots
  have hroll := h.begun.numbered
  have hroll' := (h.begun.call env op).numbered
  have hlimit' : (t.beginOp.2.noted env op roll).given.length ≤ 2 ^ 64 - 1 := by
    unfold noted
    rw [Roll.Numbers.step_length]
    split <;> omega
  have hquiet : (t.beginOp.2.after env op).opState.events .currentSessionChanged = false :=
    hslots.changed
  have hentry : t.beginOp.1.selectedSerial = t.beginOp.2.selectedSessionSerial := rfl
  have hevent : (t.reported env env' op).2.1.events .currentSessionChanged =
      ((t.beginOp.2.after env op).selectedSessionSerial != t.beginOp.2.selectedSessionSerial) := by
    change ((t.beginOp.2.after env op).opState.events .currentSessionChanged || _) = _
    rw [hquiet, Bool.false_or]
    rfl
  rw [hevent, bne_iff_ne, selectedSessionSerial_eq hroll' hlimit',
    selectedSessionSerial_eq hroll (Nat.le_of_lt hbefore)]
  exact not_congr (hroll'.eq_iff hroll hlimit' (Nat.le_of_lt hbefore) _ _)

theorem reported_output (h : t.Recorded roll) (env env' : Env P) (op : Op P) {wire : Bytes}
    (hwire : (t.reported env env' op).1 = .writeToNetwork wire) :
    t.beginOp.2.core.Produces ((t.beginOp.2.action env op).payloads ++ t.packetQueue)
      (t.reported env env' op).2.2.pendingAmneziaJunk (t.reported env env' op).2.1.outputKind
      wire := by
  have hmove := t.beginOp.2.core_after env op
  have hresult : (t.beginOp.2.run env op).1 = .writeToNetwork wire := hwire
  rw [hresult] at hmove
  have hkind : (t.reported env env' op).2.1.outputKind =
      (t.beginOp.2.after env op).core.output := by
    unfold reported finishOp
    dsimp only
    rw [hresult]
    rfl
  rw [hkind]
  exact hmove.produces h.begun.scripted

/-- A session is told by the call that stored it: before the counter saturates its serial is its
own, and a report says what became of the selected one and what was sent. -/
theorem session_identities (t : Tunn P) (roll : Roll (Fin N_SESSIONS)) (h : t.Recorded roll)
    (hbefore : roll.given.length < 2 ^ 64 - 1) :
    (∀ slot, t.opState.slotSerial slot ≠ 0 ↔ (t.sessions slot).isSome = true) ∧
    (∀ slot other, t.opState.slotSerial slot ≠ 0 →
      t.opState.slotSerial slot = t.opState.slotSerial other → slot = other) ∧
    (∀ slot, t.opState.slotSerial slot < t.opState.nextSessionSerial) ∧
    roll.given.Nodup ∧
    ∀ env env' op,
      ((t.reported env env' op).2.1.events .currentSessionChanged = true ↔
        (t.beginOp.2.noted env op roll).holder (slotOf (t.reported env env' op).2.2.current) ≠
          roll.holder (slotOf t.current)) ∧
      (∀ slot put, roll.holder slot = some put →
        (t.beginOp.2.noted env op roll).holder slot = some put →
        ∃ session session', t.sessions slot = some session ∧
          (t.reported env env' op).2.2.sessions slot = some session' ∧
          session.Continues session') ∧
      ∀ wire, (t.reported env env' op).1 = .writeToNetwork wire →
        t.beginOp.2.core.Produces ((t.beginOp.2.action env op).payloads ++ t.packetQueue)
          (t.reported env env' op).2.2.pendingAmneziaJunk
          (t.reported env env' op).2.1.outputKind wire := by
  have hroll := h.numbered
  have hlimit : roll.given.length ≤ 2 ^ 64 - 1 := Nat.le_of_lt hbefore
  refine ⟨fun slot => hroll.ne_zero_iff hlimit slot, ?_, fun slot => hroll.lt_next hbefore slot,
    hroll.nodup hlimit, ?_⟩
  · intro slot other hne heq
    exact hroll.place_unique hlimit hne heq
  · intro env env' op
    refine ⟨reported_changed h hbefore env env' op, ?_, ?_⟩
    · intro slot put hold hnew
      exact (t.beginOp.2.core_after env op).slots.continues h.begun.numbered hold hnew
    · intro wire hwire
      exact reported_output h env env' op hwire

/-- A tunnel that has answered its peer. -/
def byteAnswered : Tunn bytePrimitives :=
  byteHome.after (byteEnv 1 5) (byteReceive (byteHandshake byteHome bytePeer 1 4).initiation)

theorem session_identities_byteAnswered :
    byteAnswered.opState.slotSerial (slotOf 1) ≠ 0 ∧
      (byteAnswered.reported (byteEnv 1 5) (byteEnv 1 5)
        (byteReceive (byteHandshake byteHome bytePeer 1 4).keepalive)).2.1.events
          .currentSessionChanged = true := by
  have hrecorded : byteAnswered.Recorded (byteHome.noted _ _ _) :=
    (Recorded.new (byteTunn_isNew 1 6 1)).call (byteEnv 1 5) _
  obtain ⟨hserial, -, -, -, hreported⟩ :=
    session_identities byteAnswered _ hrecorded (by decide +kernel)
  obtain ⟨hchanged, -⟩ := hreported (byteEnv 1 5) (byteEnv 1 5)
    (byteReceive (byteHandshake byteHome bytePeer 1 4).keepalive)
  exact ⟨(hserial (slotOf 1)).mpr (by decide +kernel), hchanged.mpr (by decide +kernel)⟩

end Tunn

end BoringTun

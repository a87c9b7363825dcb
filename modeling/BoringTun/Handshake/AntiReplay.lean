import BoringTun.Handshake.Memory

/-!
What a handshake never accepts twice.

A `Ledger` runs along with a handshake: it numbers the messages sent, knows the number of
the initiation in each slot and of the message that may still be answered by a cookie
reply, and keeps a history of what happened.

* `Dated`: every accepted initiation is newer than those before it;
* `Filed`: what is completed is an initiation sent since the last expiry, and not completed
  before;
* `Owed`: a cookie reply is accepted for a message that was sent, once;
* `Indexed`: the two initiations in flight have different indices.
-/

namespace BoringTun

variable {P : Primitives}

namespace Handshake

/-! ### The ledger -/

inductive Entry (P : Primitives) where
  | sentInitiation (n : Nat)
  | sentResponse (n : Nat)
  | accepted (params : NoiseParams P) (packet : HandshakeInit P) (init : AuthenticatedInit P)
  /-- The initiation in a slot was completed. -/
  | completed (initiation : Option Nat)
  /-- The message sent last was answered by a cookie reply. -/
  | cookie (message : Option Nat)
  | expired

namespace Entry

def isExpired : Entry P → Bool
  | .expired => true
  | _ => false

/-- The message an entry sends. -/
def message : Entry P → Option Nat
  | .sentInitiation n | .sentResponse n => some n
  | _ => none

/-- The message an entry is about. -/
def number : Entry P → Option Nat
  | .sentInitiation n | .sentResponse n => some n
  | .completed n | .cookie n => n
  | .accepted .. | .expired => none

theorem number_of_message (entry : Entry P) {n : Nat} (h : entry.message = some n) :
    entry.number = some n := by
  cases entry with
  | sentInitiation m => exact h
  | sentResponse m => exact h
  | _ => cases h

end Entry

structure Ledger (P : Primitives) where
  /-- How many handshake messages were sent. -/
  sent : Nat := 0
  inState : Option Nat := none
  inPrevious : Option Nat := none
  /-- The message whose mac1 is held for a cookie reply. -/
  awaiting : Option Nat := none
  /-- Newest first. -/
  history : List (Entry P) := []

namespace Ledger

def enter (l : Ledger P) : Event P → Ledger P
  | .initiate => { l with
      sent := l.sent + 1
      inState := some l.sent
      inPrevious := l.inState
      awaiting := some l.sent
      history := .sentInitiation l.sent :: l.history }
  | .accept params packet init => { l with
      sent := l.sent + 1
      inState := none
      inPrevious := l.inState
      awaiting := some l.sent
      history := .sentResponse l.sent :: .accepted params packet init :: l.history }
  | .complete true => { l with
      inPrevious := none
      history := .completed l.inPrevious :: l.history }
  | .complete false => { l with
      inState := none
      history := .completed l.inState :: l.history }
  | .cookie => { l with awaiting := none, history := .cookie l.awaiting :: l.history }
  | .expire => { l with inState := none, inPrevious := none, history := .expired :: l.history }
  | .forgetCookie | .rekey => l

/-- What happened since the last expiry. -/
def sinceExpiry (history : List (Entry P)) : List (Entry P) :=
  history.takeWhile fun entry => !entry.isExpired

theorem mem_of_sinceExpiry {history : List (Entry P)} {entry : Entry P}
    (h : entry ∈ sinceExpiry history) : entry ∈ history :=
  (List.takeWhile_sublist _).subset h

/-- Every message has a number of its own, and none has one that is not given yet. -/
structure Numbered (l : Ledger P) : Prop where
  below : ∀ entry ∈ l.history, ∀ n, entry.number = some n → n < l.sent
  distinct : (l.history.filterMap Entry.message).Nodup

end Ledger

open Ledger

variable {m m' : Memory P} {event : Event P} {l : Ledger P}

/-! ### Timestamps -/

/-- An accepted initiation is newer than every one before it. -/
def Entry.IsNewest (older : List (Entry P)) : Entry P → Prop
  | .accepted params packet init =>
    stampUnder params packet = some init.timestamp ∧
      ∀ params' packet' init', .accepted params' packet' init' ∈ older →
        init.timestamp.after init'.timestamp = true ∧
          params'.peerStaticPublic = params.peerStaticPublic ∧
          stampUnder params' packet' = some init'.timestamp
  | _ => True

structure Dated (m : Memory P) (l : Ledger P) : Prop where
  newest : Justified Entry.IsNewest l.history
  /-- The last timestamp recorded is that of the newest. -/
  bounded : ∀ params packet init, .accepted params packet init ∈ l.history →
    init.timestamp = m.lastHandshakeTimestamp ∨
      m.lastHandshakeTimestamp.after init.timestamp = true
  opened : ∀ params packet init, .accepted params packet init ∈ l.history →
    params.peerStaticPublic = m.params.peerStaticPublic ∧
      stampUnder params packet = some init.timestamp

theorem dated_accept {h : Handshake P} {packet : HandshakeInit P} {init : AuthenticatedInit P}
    (hauth : h.authenticateInitiation packet = .ok init) (hdated : Dated h.memory l)
    (env : Env P) (reservedSlot : Nat) :
    Dated (h.answeredInit env init reservedSlot).2.memory
      (l.enter (.accept h.params packet init)) := by
  have hstamp := authenticateInitiation_stamp hauth
  have hafter := (authenticateInitiation_ok h hauth).2.2.2
  -- newer than the newest, so newer than all
  have hnewer {params'} {packet'} {init' : AuthenticatedInit P}
      (hmem : .accepted params' packet' init' ∈ l.history) :
      init.timestamp.after init'.timestamp = true := by
    rcases hdated.bounded _ _ _ hmem with heq | hlast
    · rw [heq]
      exact hafter
    · exact Tai64N.after_trans hafter hlast
  refine ⟨⟨trivial, ⟨hstamp, fun params' packet' init' hmem => ?_⟩, hdated.newest⟩, ?_, ?_⟩
  · exact ⟨hnewer hmem, hdated.opened _ _ _ hmem⟩
  · intro params' packet' init' hmem
    simp only [enter, List.mem_cons, reduceCtorEq, Entry.accepted.injEq, false_or] at hmem
    rcases hmem with ⟨-, -, rfl⟩ | hmem
    · exact .inl rfl
    · exact .inr (hnewer hmem)
  · intro params' packet' init' hmem
    simp only [enter, List.mem_cons, reduceCtorEq, Entry.accepted.injEq, false_or] at hmem
    rcases hmem with ⟨rfl, rfl, rfl⟩ | hmem
    · exact ⟨rfl, hstamp⟩
    · exact hdated.opened _ _ _ hmem

/-- Entries about other things change nothing. -/
theorem Dated.push {l' : Ledger P} {entry : Entry P} (hdated : Dated m l)
    (hhistory : l'.history = entry :: l.history)
    (hentry : ∀ params packet init, entry ≠ .accepted params packet init)
    (hlast : m'.lastHandshakeTimestamp = m.lastHandshakeTimestamp)
    (hpeer : m'.params.peerStaticPublic = m.params.peerStaticPublic) : Dated m' l' := by
  have hold {params packet init} (hmem : .accepted params packet init ∈ l'.history) :
      .accepted params packet init ∈ l.history := by
    rw [hhistory] at hmem
    exact (List.mem_cons.mp hmem).resolve_left (hentry params packet init).symm
  refine ⟨?_, ?_, ?_⟩
  · rw [hhistory]
    refine ⟨?_, hdated.newest⟩
    cases entry with
    | accepted params packet init => exact absurd rfl (hentry params packet init)
    | _ => trivial
  · intro params packet init hmem
    rw [hlast]
    exact hdated.bounded _ _ _ (hold hmem)
  · intro params packet init hmem
    rw [hpeer]
    exact hdated.opened _ _ _ (hold hmem)

theorem dated_step (hstep : Step event m m') (hdated : Dated m l) : Dated m' (l.enter event) := by
  cases hstep with
  | initiate env | cookie hauth | expire => exact hdated.push rfl nofun rfl rfl
  | accept env reservedSlot hauth => exact dated_accept hauth hdated env reservedSlot
  | @complete h now packet response hauth =>
    rw [memory_commitResponse]
    cases response.isPrevious with
    | false | true => exact hdated.push rfl nofun rfl rfl
  | forgetCookie => exact ⟨hdated.newest, hdated.bounded, hdated.opened⟩
  | rekey params hpeer =>
    refine ⟨hdated.newest, hdated.bounded, fun params' packet init hmem => ?_⟩
    obtain ⟨hkey, hstamp⟩ := hdated.opened _ _ _ hmem
    exact ⟨hkey.trans hpeer.symm, hstamp⟩

/-! ### Numbers -/

theorem Ledger.Numbered.push {l' : Ledger P} {entry : Entry P} (hnum : l.Numbered)
    (hhistory : l'.history = entry :: l.history) (hsent : l.sent ≤ l'.sent)
    (hentry : ∀ n, entry.number = some n → n < l'.sent)
    (hnew : entry.message = none ∨ entry.message = some l.sent) : l'.Numbered := by
  refine ⟨fun other hmem n hn => ?_, ?_⟩
  · rw [hhistory] at hmem
    rcases List.mem_cons.mp hmem with rfl | hmem
    · exact hentry n hn
    · exact Nat.lt_of_lt_of_le (hnum.below other hmem n hn) hsent
  · rw [hhistory]
    rcases hnew with hnone | hsome
    · rw [List.filterMap_cons_none hnone]
      exact hnum.distinct
    · rw [List.filterMap_cons_some hsome]
      refine List.nodup_cons.mpr ⟨fun hmem => ?_, hnum.distinct⟩
      obtain ⟨other, hother, hnumber⟩ := List.mem_filterMap.mp hmem
      exact Nat.lt_irrefl _ (hnum.below other hother _ (other.number_of_message hnumber))

/-- The next number is on no entry. -/
theorem Ledger.Numbered.fresh (hnum : l.Numbered) {entry : Entry P}
    (hentry : entry.number = some l.sent) : entry ∉ l.history :=
  fun hmem => Nat.lt_irrefl _ (hnum.below entry hmem _ hentry)

/-! ### Completions -/

/-- What is completed was sent since the last expiry, and is completed once. -/
def Entry.IsFirstCompletion (older : List (Entry P)) : Entry P → Prop
  | .completed initiation => ∃ n, initiation = some n ∧
      .sentInitiation n ∈ sinceExpiry older ∧ .completed (some n) ∉ older
  | _ => True

/-- An initiation that can still be completed. -/
def Pending (history : List (Entry P)) (n : Nat) : Prop :=
  .sentInitiation n ∈ sinceExpiry history ∧ .completed (some n) ∉ history

theorem Pending.push {history : List (Entry P)} {n : Nat} (h : Pending history n)
    {entry : Entry P} (hexpired : entry.isExpired = false) (hother : entry ≠ .completed (some n)) :
    Pending (entry :: history) n := by
  refine ⟨?_, ?_⟩
  · rw [sinceExpiry, List.takeWhile_cons_of_pos (by simp [hexpired])]
    exact List.mem_cons_of_mem _ h.1
  · intro hmem
    rcases List.mem_cons.mp hmem with heq | hmem
    · exact hother heq.symm
    · exact h.2 hmem

structure Filed (m : Memory P) (l : Ledger P) : Prop where
  once : Justified Entry.IsFirstCompletion l.history
  numbered : l.Numbered
  inState : ∀ sent, m.state = .initSent sent → ∃ n, l.inState = some n
  inPrevious : ∀ sent, m.previous = .initSent sent → ∃ n, l.inPrevious = some n
  pendingState : ∀ n, l.inState = some n → Pending l.history n
  pendingPrevious : ∀ n, l.inPrevious = some n → Pending l.history n
  apart : ∀ n, l.inState = some n → l.inPrevious ≠ some n

theorem Filed.lt_sent {n : Nat} (hfiled : Filed m l) (h : Pending l.history n) : n < l.sent :=
  hfiled.numbered.below _ (mem_of_sinceExpiry h.1) n rfl

theorem filed_initiate {h : Handshake P} (env : Env P) (hfiled : Filed h.memory l) :
    Filed (h.initiated env).2.memory (l.enter .initiate) := by
  constructor
  · exact ⟨trivial, hfiled.once⟩
  · refine hfiled.numbered.push rfl (Nat.le_succ _) ?_ (.inr rfl)
    rintro n ⟨⟩
    exact Nat.lt_succ_self _
  · intro sent _
    exact ⟨_, rfl⟩
  · exact hfiled.inState
  · rintro n ⟨⟩
    refine ⟨List.mem_cons_self, fun hmem => ?_⟩
    exact hfiled.numbered.fresh rfl ((List.mem_cons.mp hmem).resolve_left nofun)
  · intro n hn
    exact (hfiled.pendingState n hn).push rfl nofun
  · rintro n ⟨⟩ hn
    exact Nat.lt_irrefl _ (hfiled.lt_sent (hfiled.pendingState _ hn))

theorem filed_accept {h : Handshake P} (packet : HandshakeInit P) (init : AuthenticatedInit P)
    (env : Env P) (reservedSlot : Nat) (hfiled : Filed h.memory l) :
    Filed (h.answeredInit env init reservedSlot).2.memory
      (l.enter (.accept h.params packet init)) := by
  constructor
  · exact ⟨trivial, trivial, hfiled.once⟩
  · have haccepted : { l with
        history := .accepted h.params packet init :: l.history }.Numbered :=
      hfiled.numbered.push rfl (Nat.le_refl _) nofun (.inl rfl)
    refine haccepted.push rfl (Nat.le_succ _) ?_ (.inr rfl)
    rintro n ⟨⟩
    exact Nat.lt_succ_self _
  · intro sent hsent
    cases hsent
  · exact hfiled.inState
  · intro n hn
    cases hn
  · intro n hn
    have haccepted : Pending (.accepted h.params packet init :: l.history) n :=
      (hfiled.pendingState n hn).push rfl nofun
    exact haccepted.push rfl nofun
  · intro n hn
    cases hn

/-- A response takes the number out of its slot. -/
theorem filed_complete {h : Handshake P} {now : Nat} {packet : HandshakeResponse P}
    {response : AuthenticatedResponse P} (hauth : h.authenticateResponse now packet = .ok response)
    (hfiled : Filed h.memory l) :
    Filed (h.commitResponse response).2.memory (l.enter (.complete response.isPrevious)) := by
  obtain ⟨sent, -, -, hslot, -⟩ := authenticateResponse_eq_ok hauth
  rw [memory_commitResponse]
  cases hprevious : response.isPrevious with
  | true =>
    rw [hprevious] at hslot
    obtain ⟨n, hn⟩ := hfiled.inPrevious sent hslot
    obtain ⟨hsent, hfirst⟩ := hfiled.pendingPrevious n hn
    constructor
    · exact ⟨⟨n, hn, hsent, hfirst⟩, hfiled.once⟩
    · refine hfiled.numbered.push rfl (Nat.le_refl _) (fun n' hn' => ?_) (.inl rfl)
      exact hfiled.lt_sent (hfiled.pendingPrevious n' hn')
    · exact hfiled.inState
    · intro _ hnone
      cases hnone
    · intro n' hn'
      refine (hfiled.pendingState n' hn').push rfl fun heq => hfiled.apart n' hn' ?_
      exact Entry.completed.inj heq
    · intro _ hnone
      cases hnone
    · exact fun _ _ => nofun
  | false =>
    rw [hprevious] at hslot
    obtain ⟨n, hn⟩ := hfiled.inState sent hslot
    obtain ⟨hsent, hfirst⟩ := hfiled.pendingState n hn
    constructor
    · exact ⟨⟨n, hn, hsent, hfirst⟩, hfiled.once⟩
    · refine hfiled.numbered.push rfl (Nat.le_refl _) (fun n' hn' => ?_) (.inl rfl)
      exact hfiled.lt_sent (hfiled.pendingState n' hn')
    · intro _ hnone
      cases hnone
    · exact hfiled.inPrevious
    · intro _ hnone
      cases hnone
    · intro n' hn'
      refine (hfiled.pendingPrevious n' hn').push rfl fun heq => hfiled.apart n' ?_ hn'
      exact Entry.completed.inj heq
    · intro _ hnone
      cases hnone

theorem filed_step (howed : ∀ n, l.awaiting = some n → n < l.sent) (hstep : Step event m m')
    (hfiled : Filed m l) : Filed m' (l.enter event) := by
  cases hstep with
  | initiate env => exact filed_initiate env hfiled
  | accept env reservedSlot hauth => exact filed_accept _ _ env reservedSlot hfiled
  | complete hauth => exact filed_complete hauth hfiled
  | cookie hauth =>
    constructor
    · exact ⟨trivial, hfiled.once⟩
    · exact hfiled.numbered.push rfl (Nat.le_refl _) howed (.inl rfl)
    · exact hfiled.inState
    · exact hfiled.inPrevious
    · exact fun n hn => (hfiled.pendingState n hn).push rfl nofun
    · exact fun n hn => (hfiled.pendingPrevious n hn).push rfl nofun
    · exact hfiled.apart
  | expire =>
    constructor
    · exact ⟨trivial, hfiled.once⟩
    · exact hfiled.numbered.push rfl (Nat.le_refl _) nofun (.inl rfl)
    all_goals exact nofun
  | forgetCookie | rekey params hpeer => exact { hfiled with }

/-! ### Cookie replies -/

/-- A cookie reply is accepted for a message that was sent, and once. -/
def Entry.IsFirstCookie (older : List (Entry P)) : Entry P → Prop
  | .cookie message => ∃ n, message = some n ∧
      (.sentInitiation n ∈ older ∨ .sentResponse n ∈ older) ∧ .cookie (some n) ∉ older
  | _ => True

/-- A message that can still be answered by a cookie reply. -/
def Unanswered (history : List (Entry P)) (n : Nat) : Prop :=
  (.sentInitiation n ∈ history ∨ .sentResponse n ∈ history) ∧ .cookie (some n) ∉ history

theorem Unanswered.push {history : List (Entry P)} {n : Nat} (h : Unanswered history n)
    {entry : Entry P} (hother : entry ≠ .cookie (some n)) : Unanswered (entry :: history) n := by
  refine ⟨h.1.imp (List.mem_cons_of_mem _) (List.mem_cons_of_mem _), fun hmem => ?_⟩
  rcases List.mem_cons.mp hmem with heq | hmem
  · exact hother heq.symm
  · exact h.2 hmem

structure Owed (m : Memory P) (l : Ledger P) : Prop where
  once : Justified Entry.IsFirstCookie l.history
  awaiting : m.cookies.lastMac1.isSome = true → ∃ n, l.awaiting = some n
  unanswered : ∀ n, l.awaiting = some n → Unanswered l.history n

theorem Owed.lt_sent (howed : Owed m l) (hnum : l.Numbered) (n : Nat) (hn : l.awaiting = some n) :
    n < l.sent :=
  (howed.unanswered n hn).1.elim (fun h => hnum.below _ h n rfl)
    (fun h => hnum.below _ h n rfl)

/-- Entries about other things change nothing. -/
theorem Owed.push {l' : Ledger P} {entry : Entry P} (howed : Owed m l)
    (hhistory : l'.history = entry :: l.history) (hentry : ∀ n, entry ≠ .cookie n)
    (hawaiting : l'.awaiting = l.awaiting) (hcookies : m'.cookies = m.cookies) : Owed m' l' := by
  constructor
  · rw [hhistory]
    refine ⟨?_, howed.once⟩
    cases entry with
    | cookie n => exact absurd rfl (hentry n)
    | _ => trivial
  · rw [hcookies, hawaiting]
    exact howed.awaiting
  · rw [hhistory, hawaiting]
    exact fun n hn => (howed.unanswered n hn).push (hentry _)

theorem owed_step (hnum : l.Numbered) (hstep : Step event m m') (howed : Owed m l) :
    Owed m' (l.enter event) := by
  cases hstep with
  | initiate env =>
    refine ⟨⟨trivial, howed.once⟩, fun _ => ⟨_, rfl⟩, ?_⟩
    rintro n ⟨⟩
    refine ⟨.inl List.mem_cons_self, fun hmem => ?_⟩
    exact hnum.fresh rfl ((List.mem_cons.mp hmem).resolve_left nofun)
  | accept env reservedSlot hauth =>
    refine ⟨⟨trivial, trivial, howed.once⟩, fun _ => ⟨_, rfl⟩, ?_⟩
    rintro n ⟨⟩
    have hfresh : .cookie (some l.sent) ∉ l.history := hnum.fresh rfl
    refine ⟨.inr List.mem_cons_self, fun hmem => hfresh ?_⟩
    exact (List.mem_cons.mp ((List.mem_cons.mp hmem).resolve_left nofun)).resolve_left nofun
  | @complete h now packet response hauth =>
    rw [memory_commitResponse]
    cases response.isPrevious with
    | false | true => exact howed.push rfl nofun rfl rfl
  | cookie hauth =>
    obtain ⟨n, hn⟩ := howed.awaiting (authenticateCookieReply_lastMac1 hauth)
    exact ⟨⟨⟨n, hn, howed.unanswered n hn⟩, howed.once⟩, nofun, nofun⟩
  | forgetCookie | rekey params hpeer => exact { howed with }
  | expire => exact howed.push rfl nofun rfl rfl

/-! ### Indices -/

/-- The index in `state` is the last one given out, and is not that in `previous`. -/
structure Indexed (m : Memory P) : Prop where
  last : ∀ sent, m.state = .initSent sent → sent.localIndex = m.nextIndex
  apart : ∀ sent sent', m.state = .initSent sent → m.previous = .initSent sent' →
    sent.localIndex ≠ sent'.localIndex

theorem succIndex_ne (index : UInt32) : succIndex index ≠ index := by
  intro heq
  have hlt := index.toNat_lt
  have hval := congrArg UInt32.toNat heq
  rw [succIndex, UInt32.toNat_ofNat'] at hval
  omega

theorem indexed_step (hstep : Step event m m') (hindexed : Indexed m) : Indexed m' := by
  cases hstep with
  | @initiate h env =>
    refine ⟨?_, ?_⟩
    · rintro sent ⟨⟩
      rfl
    · rintro sent sent' ⟨⟩ hprevious
      -- what moved to `previous` had the index before this one
      rw [hindexed.last sent' hprevious]
      exact succIndex_ne h.nextIndex
  | accept env reservedSlot hauth | expire => exact ⟨nofun, nofun⟩
  | @complete h now packet response hauth =>
    rw [memory_commitResponse]
    cases response.isPrevious with
    | false => exact ⟨nofun, nofun⟩
    | true => exact ⟨hindexed.last, fun _ _ _ => nofun⟩
  | cookie hauth | forgetCookie | rekey params hpeer => exact { hindexed with }

/-! ### Every run -/

structure Kept (m : Memory P) (l : Ledger P) : Prop where
  dated : Dated m l
  filed : Filed m l
  owed : Owed m l
  indexed : Indexed m

theorem Memory.IsBlank.kept (h : m.IsBlank) : Kept m {} := by
  obtain ⟨hprevious, hstate, hcookies⟩ := h
  refine ⟨⟨trivial, nofun, nofun⟩, ⟨trivial, ⟨nofun, .nil⟩, ?_, ?_, nofun, nofun, nofun⟩,
    ⟨trivial, ?_, nofun⟩, ⟨?_, ?_⟩⟩
  · rw [hstate]
    exact nofun
  · rw [hprevious]
    exact nofun
  · rw [hcookies]
    exact nofun
  · rw [hstate]
    exact nofun
  · rw [hstate]
    exact nofun

theorem kept_step (hstep : Step event m m') (h : Kept m l) : Kept m' (l.enter event) where
  dated := dated_step hstep h.dated
  filed := filed_step (h.owed.lt_sent h.filed.numbered) hstep h.filed
  owed := owed_step h.filed.numbered hstep h.owed
  indexed := indexed_step hstep h.indexed

theorem kept_trace {events : List (Event P)} (htrace : Trace Step m events m') (h : Kept m l) :
    Kept m' (events.foldl enter l) :=
  htrace.account (fun _ _ _ _ hstep => kept_step hstep) h

end Handshake

end BoringTun

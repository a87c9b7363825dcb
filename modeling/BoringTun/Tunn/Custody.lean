import BoringTun.Tunn.Acts

/-!
Who holds a payload.

`Custody` is what tells where payloads are: the queue, whether a dropped head was reported,
and the kind of the last datagram. Whatever starts or retransmits a handshake `Keeps` it: the
queue is as it was, and no datagram is a transport packet. A write (`Submitting.submits`), a
drain (`Draining.drains`) and a poll (`updateTimers_polls`) are described by what they do with
each payload.
-/

namespace BoringTun

def OpReport.PacketKind.isTransport : OpReport.PacketKind → Bool
  | .transportData | .transportKeepalive => true
  | _ => false

structure Custody where
  queue : List Bytes
  dropReported : Bool
  /-- The kind of the last datagram written. -/
  kind : OpReport.PacketKind

namespace Custody

/-- The queue is as it was, no drop is reported, and what is written is not transport. -/
structure Keeps (c : Custody) (result : TunnResult) (c' : Custody) : Prop where
  queue : c'.queue = c.queue
  dropReported : c'.dropReported = c.dropReported
  kind : result.isWriteToNetwork = true → c'.kind.isTransport = false

variable {c c' : Custody} {result : TunnResult}

theorem Keeps.silent (hsame : c' = c) (hresult : result.isWriteToNetwork = false) :
    c.Keeps result c' where
  queue := congrArg Custody.queue hsame
  dropReported := congrArg Custody.dropReported hsame
  kind hwrite := by
    rw [hresult] at hwrite
    cases hwrite

end Custody

/-- What a call did with the payloads it was given or held. -/
inductive Handling where
  /-- The submitted payload is neither sent nor queued. -/
  | refused
  /-- The submitted payload is sent in the datagram of the call. -/
  | forwarded (payload : Bytes)
  | queued (payload : Bytes)
  /-- Heads of the queue are dropped, and the next one is sent, if any. -/
  | drained (dropped : List Bytes) (sent : Option Bytes)
  /-- The connection expires with what is queued. -/
  | expired (lost : List Bytes)
  | kept

namespace Tunn

variable {P : Primitives} (t : Tunn P)

def custody : Custody :=
  ⟨t.packetQueue, t.opState.events .queueHeadDropped, t.opState.outputKind⟩

/-! ### Small changes -/

@[simp] theorem custody_noteRefusal (result : TunnResult) :
    (t.noteRefusal result).custody = t.custody := by
  unfold noteRefusal
  split <;> rfl

@[simp] theorem custody_spendKeepalives (passive persistent : Bool) :
    (t.spendKeepalives passive persistent).custody = t.custody := by
  rw [spendKeepalives_eq]
  rfl

@[simp] theorem custody_spendLatch (latch : Option Nat) :
    (t.spendLatch latch).custody = t.custody := by
  cases latch <;> rfl

/-! ### What starts a handshake -/

section

variable {t} {t' : Tunn P} {env env' : Env P} {dst wire : Bytes} {force owed : Bool}
  {budget : OutputBudget} {result : TunnResult}

theorem Initiates.keeps (h : t.Initiates dst budget owed wire t') :
    t.custody.Keeps (.writeToNetwork wire) t'.custody := by
  cases h
  exact ⟨rfl, rfl, fun _ => rfl⟩

theorem Emitting.keeps (h : t.Emitting dst budget wire t') :
    t.custody.Keeps (.writeToNetwork wire) t'.custody := by
  cases h with
  | imitation | junk => exact ⟨rfl, rfl, fun _ => rfl⟩
  | deferred _ _ _ hinitiates | direct _ hinitiates => exact hinitiates.keeps

theorem Readying.custody (h : t.Readying force t') : t'.custody = t.custody := by
  cases h <;> rfl

theorem Driving.keeps (h : t.Driving env dst force budget result t' env') :
    t.custody.Keeps result t'.custody := by
  cases h with
  | busy | paced => exact .silent rfl rfl
  | refused hready => exact .silent hready.custody rfl
  | emitted hready hemits =>
    rw [← hready.custody]
    exact hemits.keeps

end

/-! ### Writes -/

/-- A session of the tunnel has used a nonce to put `payload` on the wire. -/
def Emitted (t : Tunn P) (slot : Fin N_SESSIONS) (payload wire : Bytes) : Prop :=
  ∃ (session : Session P) (rng : Rng) (pad : Nat), t.sessions slot = some session.advanced ∧
    AmneziaConfig.Frame P t.amnezia .transportData
      (session.message t.handshake.obf rng payload pad) wire

variable {t}

/-- What was sealed on the selected session has left with a nonce of it. -/
theorem emitted_delivering {session : Session P} {src dst wire : Bytes} {budget : OutputBudget}
    {window : Nat} (h : Sealed t.amnezia t.handshake.obf window session src dst budget wire)
    (rng rng' : Rng) :
    (t.delivering session src rng rng').Emitted (slotOf t.current) src wire := by
  obtain ⟨rng₀, pad, hframe⟩ := h.frame
  exact ⟨session, rng₀, pad, Function.update_self .., hframe⟩

/-- What becomes of a submitted payload. -/
inductive Submits (t : Tunn P) (payload : Bytes) (result : TunnResult) (t' : Tunn P) :
    Handling → Prop where
  | refused (herr : result.isErr = true) (hkeeps : t.custody.Keeps result t'.custody) :
    Submits t payload result t' .refused
  | forwarded {wire : Bytes} (hresult : result = .writeToNetwork wire)
    (hemitted : t'.Emitted (slotOf t.current) payload wire)
    (hqueue : t'.packetQueue = t.packetQueue)
    (hreport : t'.custody.dropReported = t.custody.dropReported) :
    Submits t payload result t' (.forwarded payload)
  | queued (herr : result.isErr = false) (hroom : t.packetQueue.length < MAX_QUEUE_DEPTH)
    (hkeeps : { t.custody with queue := t.packetQueue ++ [payload] }.Keeps result t'.custody) :
    Submits t payload result t' (.queued payload)

theorem Submitting.submits {t' : Tunn P} {env env' : Env P} {src dst : Bytes}
    {budget : OutputBudget} {result : TunnResult}
    (h : t.Submitting env src dst budget result t' env') :
    ∃ handling, t.Submits src result t' handling := by
  cases h with
  | refused | full => exact ⟨_, .refused rfl (.silent rfl rfl)⟩
  | sent _ _ hsealed => exact ⟨_, .forwarded rfl (emitted_delivering hsealed _ _) rfl rfl⟩
  | failed _ _ hdrives => exact ⟨_, .refused rfl hdrives.keeps⟩
  | queued _ hroom hdrives hok =>
    obtain ⟨hqueue, hreport, hkind⟩ := hdrives.keeps
    exact ⟨_, .queued hok hroom ⟨congrArg (· ++ [src]) hqueue, hreport, hkind⟩⟩

/-! ### Drains -/

/-- What a drain of `queue` does: heads over a finite transport budget are dropped, with a
report, and the next one is sent, or stays with those behind it. -/
structure Drains (t : Tunn P) (budget : OutputBudget) (queue dropped : List Bytes)
    (sent : Option Bytes) (result : TunnResult) (t' : Tunn P) : Prop where
  queue : queue = dropped ++ sent.toList ++ t'.packetQueue
  oversize : ∀ payload ∈ dropped, budget.transport ≠ 0 ∧
    budget.transport < Budget.transportFrame payload.length t.amnezia.transportJunkSize
  reported : t'.custody.dropReported = (t.custody.dropReported || !dropped.isEmpty)
  emitted : ∀ payload, sent = some payload →
    ∃ wire, result = .writeToNetwork wire ∧ t'.Emitted (slotOf t.current) payload wire
  silent : sent = none → result.isWriteToNetwork = false

theorem dropReported_noteDropped (dropped queue : List Bytes) :
    { t.noteDropped dropped with packetQueue := queue }.custody.dropReported =
      (t.custody.dropReported || !dropped.isEmpty) := by
  unfold noteDropped custody
  cases dropped with
  | nil => exact (Bool.or_false _).symm
  | cons => exact (Bool.or_true _).symm

theorem Draining.drains {t' : Tunn P} {env env' : Env P} {dst : Bytes} {budget : OutputBudget}
    {result : TunnResult} (h : t.Draining env dst budget result t' env') :
    t.custody.Keeps result t'.custody ∨
      ∃ dropped sent, t.Drains budget t.packetQueue dropped sent result t' := by
  have hover {dropped : List Bytes} (h : ∀ payload ∈ dropped, t.IsOver budget payload) :
      ∀ payload ∈ dropped, budget.transport ≠ 0 ∧
        budget.transport < Budget.transportFrame payload.length t.amnezia.transportJunkSize :=
    fun payload hmem => by simpa [IsOver, Budget.exceeds] using h payload hmem
  cases h with
  | empty => exact .inl (.silent rfl rfl)
  | driven _ _ hdrives => exact .inl hdrives.keeps
  | dropped _ h =>
    exact .inr ⟨t.packetQueue, none, by simp, hover h, dropReported_noteDropped _ _,
      by rintro _ ⟨⟩, fun _ => rfl⟩
  | @refused _ dropped _ _ _ hqueue h =>
    exact .inr ⟨dropped, none, by simpa using hqueue, hover h, dropReported_noteDropped _ _,
      by rintro _ ⟨⟩, fun _ => rfl⟩
  | @sent wire head dropped rest session rng rng' _ hqueue h hselected hsealed =>
    have hleft : t.packetQueue = dropped ++ [head] ++ rest := by simpa using hqueue
    refine .inr ⟨dropped, some head, hleft, hover h, dropReported_noteDropped _ rest, ?_,
      by rintro ⟨⟩⟩
    rintro _ ⟨⟩
    exact ⟨wire, rfl, emitted_delivering (t := { t.noteDropped dropped with packetQueue := rest })
      hsealed _ _⟩

/-! ### Polls -/

/-- What became of payloads in a poll, which submits keepalives of its own. -/
inductive Polls (t : Tunn P) (result : TunnResult) (t' : Tunn P) : Handling → Prop where
  | keepalive {handling : Handling} (h : t.Submits [] result t' handling) :
    Polls t result t' handling
  | expired (hresult : result = .err .connectionExpired) (hqueue : t'.packetQueue = [])
    (hreport : t'.custody.dropReported = t.custody.dropReported) :
    Polls t result t' (.expired t.packetQueue)
  | kept (h : t.custody.Keeps result t'.custody) : Polls t result t' .kept

/-- Payloads are where they were before and the same slot is selected. -/
def SameCustody (t t₁ : Tunn P) : Prop := t₁.custody = t.custody ∧ t₁.current = t.current

theorem Polls.of_sameCustody {t₁ t' : Tunn P} {result : TunnResult} {handling : Handling}
    (hsame : t.SameCustody t₁) (h : t₁.Polls result t' handling) : t.Polls result t' handling := by
  obtain ⟨hcustody, hcurrent⟩ := hsame
  have hqueue : t₁.packetQueue = t.packetQueue := congrArg Custody.queue hcustody
  cases h with
  | keepalive h =>
    apply Polls.keepalive
    cases h with
    | refused herr hkeeps => exact .refused herr (hcustody ▸ hkeeps)
    | forwarded hresult hemitted hkept hreport =>
      exact .forwarded hresult (hcurrent ▸ hemitted) (hkept.trans hqueue) (hcustody ▸ hreport)
    | queued herr hroom hkeeps =>
      rw [hcustody, hqueue] at hkeeps
      exact .queued herr (hqueue ▸ hroom) hkeeps
  | expired hresult hempty hreport =>
    rw [hqueue]
    exact .expired hresult hempty (hcustody ▸ hreport)
  | kept h => exact .kept (hcustody ▸ h)

/-- What a submission did is not undone by what does not touch custody or sessions. -/
theorem Submits.followed {payload : Bytes} {result : TunnResult} {t' t'' : Tunn P}
    {handling : Handling} (h : t.Submits payload result t' handling)
    (hcustody : t''.custody = t'.custody) (hsessions : t''.sessions = t'.sessions)
    (hamnezia : t''.amnezia = t'.amnezia) (hobf : t''.handshake.obf = t'.handshake.obf) :
    t.Submits payload result t'' handling := by
  cases h with
  | refused herr hkeeps => exact .refused herr (hcustody ▸ hkeeps)
  | forwarded hresult hemitted hqueue hreport =>
    have hsame : t''.packetQueue = t'.packetQueue := congrArg Custody.queue hcustody
    refine .forwarded hresult ?_ (hsame.trans hqueue) (hcustody ▸ hreport)
    unfold Emitted
    rw [hsessions, hamnezia, hobf]
    exact hemitted
  | queued herr hroom hkeeps => exact .queued herr hroom (hcustody ▸ hkeeps)

theorem Polling.polls {t' : Tunn P} {env env' : Env P} {dst : Bytes} {budget : OutputBudget}
    {result : TunnResult} (h : t.Polling env dst budget result t' env') :
    ∃ handling, t.Polls result t' handling := by
  cases h with
  | waits | expired | withholds => exact ⟨_, .kept (.silent rfl rfl)⟩
  | burst _ hdrives => exact ⟨_, .kept hdrives.keeps⟩
  | expires => exact ⟨_, .expired rfl rfl rfl⟩
  | retransmits _ _ _ hdrives =>
    refine ⟨_, .kept ?_⟩
    rw [custody_noteRefusal]
    exact hdrives.keeps
  | initiates _ _ _ hdrives =>
    refine ⟨_, .kept ?_⟩
    rw [custody_noteRefusal, ← custody_spendLatch]
    exact hdrives.keeps
  | @keepalive passive persistent _ t' _ _ _ _ _ _ _ hsubmits =>
    obtain ⟨handling, hsubmits⟩ := hsubmits.submits
    have hspent : t.SameCustody (t.spendKeepalives passive persistent) :=
      ⟨t.custody_spendKeepalives _ _, by rw [spendKeepalives_eq]⟩
    have hnoted : (t'.noteRefusal result).sessions = t'.sessions ∧
        (t'.noteRefusal result).amnezia = t'.amnezia ∧
        (t'.noteRefusal result).handshake = t'.handshake := by
      unfold noteRefusal
      split <;> exact ⟨rfl, rfl, rfl⟩
    exact ⟨handling, Polls.of_sameCustody hspent (.keepalive (hsubmits.followed
      (custody_noteRefusal _ _) hnoted.1 hnoted.2.1 (congrArg Handshake.obf hnoted.2.2)))⟩
  | owes _ _ _ hready =>
    refine ⟨_, .kept (.silent ?_ rfl)⟩
    rcases hready with rfl | hready
    · rfl
    · exact hready.custody

theorem updateSessionTimers_sameCustody (timeNow : Nat) :
    t.SameCustody (t.updateSessionTimers timeNow) := by
  refine ⟨?_, rfl⟩
  unfold updateSessionTimers custody
  dsimp only
  rw [OpState.foldl_sessionRemoved]
  split
  · rfl
  · rfl

theorem updateTimers_polls (env : Env P) (dst : Bytes) (budget : OutputBudget) :
    let out := t.updateTimers env dst budget
    ∃ handling, t.Polls out.1 out.2.1 handling := by
  obtain ⟨t₁, hstart, hpolls⟩ := t.updateTimers_polling env dst budget
  have hbegun : t.SameCustody (t.beginPoll env).2.1 := updateSessionTimers_sameCustody _
  have hsame : t.SameCustody t₁ := by
    rcases hstart with rfl | rfl
    · exact hbegun
    · unfold forgetOldCookie
      split
      · exact hbegun
      · exact hbegun
  obtain ⟨handling, hpolls⟩ := hpolls.polls
  exact ⟨handling, hpolls.of_sameCustody hsame⟩

end Tunn

end BoringTun

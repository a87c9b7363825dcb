import BoringTun.Lib.Account
import BoringTun.Tunn.Custody
import BoringTun.Tunn.Simulation

/-!
Payload ownership over whole runs.

`Handles` says what every call does with payloads; `run_handles` gives each call of a run one
entry of a ledger. What the entries queue and what leaves the queue add up
(`payload_ownership`): the payloads ever queued, in the order they were submitted, are those
that have left it, in the order they left and each with what became of it, and then those
still there.
-/

namespace BoringTun

variable {P : Primitives}

namespace Tunn

variable {t : Tunn P}

/-- What a call did with payloads, for every kind of call. -/
inductive Handles (t : Tunn P) (env : Env P) (result : TunnResult) (t' : Tunn P) :
    Op P → Handling → Prop where
  | submitted {src dst : Bytes} {budget : OutputBudget} {handling : Handling}
    (h : t.Submits src result t' handling) :
    Handles t env result t' (.encapsulate src dst budget) handling
  | polled {dst : Bytes} {budget : OutputBudget} {handling : Handling}
    (h : t.Polls result t' handling) : Handles t env result t' (.updateTimers dst budget) handling
  | drained {source : Option Source} {dst : Bytes} {budget : OutputBudget} {dropped : List Bytes}
    {sent : Option Bytes} (h : t.Drains budget t.packetQueue dropped sent result t') :
    Handles t env result t' (.decapsulate source [] dst budget) (.drained dropped sent)
  /-- An accepted response is confirmed by an empty packet on its session. -/
  | confirmed {source : Option Source} {datagram dst wire : Bytes} {budget : OutputBudget}
    {response : AuthenticatedResponse P}
    (haccepted : t.accepted env source datagram dst budget = some (.handshakeResponse response))
    (hresult : result = .writeToNetwork wire)
    (hemitted : t'.Emitted (slotOf response.session.receivingIndex.toNat) [] wire)
    (hqueue : t'.packetQueue = t.packetQueue)
    (hreport : t'.custody.dropReported = t.custody.dropReported) :
    Handles t env result t' (.decapsulate source datagram dst budget) .kept
  | kept {op : Op P} (hop : ∀ src dst budget, op ≠ .encapsulate src dst budget)
    (h : t.custody.Keeps result t'.custody) : Handles t env result t' op .kept

/-! ### Received datagrams -/

/-- What a commit does with payloads: nothing, or it confirms a response. -/
def Confirms (t : Tunn P) (packet : Authenticated P) (result : TunnResult) (t' : Tunn P) : Prop :=
  t.custody.Keeps result t'.custody ∨
    ∃ response wire, packet = .handshakeResponse response ∧ result = .writeToNetwork wire ∧
      t'.Emitted (slotOf response.session.receivingIndex.toNat) [] wire ∧
      t'.packetQueue = t.packetQueue ∧ t'.custody.dropReported = t.custody.dropReported

theorem Accepting.confirms {dst : Bytes} {budget : OutputBudget} {packet : Authenticated P}
    {result : TunnResult} {t' : Tunn P} (h : t.Accepting dst budget packet result t') :
    t.Confirms packet result t' := by
  cases h with
  | answered => exact .inl ⟨rfl, rfl, fun _ => rfl⟩
  | @completed response wire r₁ r₂ r₃ rng hsealed =>
    obtain ⟨rng₀, pad, hframe⟩ := hsealed.frame
    rw [← commitResponse_obf t.handshake response] at hframe
    exact .inr ⟨response, wire, rfl, rfl,
      ⟨response.session, rng₀, pad, Function.update_self .., hframe⟩, rfl, rfl⟩
  | cookie => exact .inl (.silent rfl rfl)
  | data hquiet => exact .inl (.silent rfl hquiet)

theorem commit_confirms (env : Env P) {packet : Authenticated P} {dst : Bytes}
    {budget : OutputBudget} (hgen : t.Genuine dst budget packet) (datagram : Bytes)
    (hint : Option AmneziaImitationProtocol) :
    let out := t.commitWithImitationAndBudget env packet datagram hint dst budget
    t.Confirms packet out.1 out.2.1 := by
  obtain ⟨auto, -, haccepts⟩ := commit_accepting env hgen datagram hint
  have hnoted : { t.noteInput packet with autoImitation := auto }.custody = t.custody := by
    cases packet <;> rfl
  have hconfirms := haccepts.confirms
  unfold Confirms at hconfirms
  rw [hnoted] at hconfirms
  exact hconfirms

/-- What is not accepted moves no payload. -/
theorem decapsulateSource_keeps {env : Env P} {source : Option Source} {datagram dst : Bytes}
    {budget : OutputBudget} (hne : datagram ≠ [])
    (hrefused : t.accepted env source datagram dst budget = none) :
    let out := t.decapsulateSource env source datagram dst budget
    t.custody.Keeps out.1 out.2.1.custody := by
  have hreplies := t.decapsulateSource_replies env source datagram dst budget hne hrefused
  obtain ⟨rng, ⟨limiter, pending, outputKind, -, hsame⟩, -⟩ :=
    t.decapsulateSource_untouched env source datagram dst budget hne hrefused
  dsimp only at hreplies ⊢
  generalize t.decapsulateSource env source datagram dst budget = out at hreplies hsame ⊢
  refine ⟨by rw [hsame]; rfl, by rw [hsame]; rfl, fun hwrite => ?_⟩
  cases hresult : out.1 with
  | writeToNetwork wire =>
    rw [show out.2.1.custody.kind = .cookieReply from (hreplies wire hresult).1]
    rfl
  | _ =>
    rw [hresult] at hwrite
    cases hwrite

theorem decapsulate_handles (env : Env P) (source : Option Source) (datagram dst : Bytes)
    (budget : OutputBudget) :
    let out := t.decapsulateSource env source datagram dst budget
    ∃ handling, t.Handles env out.1 out.2.1 (.decapsulate source datagram dst budget) handling := by
  by_cases hempty : datagram = []
  · subst hempty
    rcases (t.sendQueuedPacket_draining env dst budget).drains with hkeeps | ⟨dropped, sent, hdrains⟩
    · exact ⟨_, .kept nofun hkeeps⟩
    · exact ⟨_, .drained hdrains⟩
  · cases haccepted : t.accepted env source datagram dst budget with
    | some packet =>
      obtain ⟨hgen, limiter, env', hint, -, hcommit⟩ :=
        decapsulateSource_accepted env source datagram dst budget hempty haccepted
      have hconfirms := commit_confirms (t := { t with rateLimiter := limiter }) env' hgen datagram
        hint
      rw [← hcommit] at hconfirms
      rcases hconfirms with hkeeps | ⟨response, wire, rfl, hresult, hemitted, hqueue, hreport⟩
      · exact ⟨_, .kept nofun hkeeps⟩
      · exact ⟨_, .confirmed haccepted hresult hemitted hqueue hreport⟩
    | none => exact ⟨_, .kept nofun (decapsulateSource_keeps hempty haccepted)⟩

/-! ### Setters -/

theorem custody_setObfuscation (obf : ObfuscationRanges) (amnezia : AmneziaConfig) :
    (t.setObfuscation obf amnezia).custody = t.custody := by
  rcases t.setObfuscation_cases obf amnezia with hsame | hinstalls
  · rw [hsame]
  · generalize t.setObfuscation obf amnezia = t' at hinstalls
    cases hinstalls
    rfl

theorem run_handles (env : Env P) (op : Op P) :
    ∃ handling, t.Handles env (t.run env op).1 (t.after env op) op handling := by
  have hsetter {t' : Tunn P} {op : Op P} (hop : ∀ src dst budget, op ≠ .encapsulate src dst budget)
      (h : t'.custody = t.custody) : ∃ handling, t.Handles env .done t' op handling :=
    ⟨_, .kept hop (.silent h rfl)⟩
  cases op with
  | encapsulate src dst budget =>
    obtain ⟨handling, h⟩ := (t.encapsulate_submitting env src dst budget).submits
    exact ⟨handling, .submitted h⟩
  | decapsulate source datagram dst budget => exact decapsulate_handles env source datagram dst budget
  | updateTimers dst budget =>
    obtain ⟨handling, h⟩ := updateTimers_polls (t := t) env dst budget
    exact ⟨handling, .polled h⟩
  | formatHandshakeInitiation dst forceResend budget =>
    exact ⟨_, .kept (by rintro _ _ _ ⟨⟩)
      (t.formatHandshakeInitiation_driving env dst forceResend budget).keeps⟩
  | setObfuscation obf amnezia =>
    exact hsetter (by rintro _ _ _ ⟨⟩) (custody_setObfuscation obf amnezia)
  | setPresharedKey presharedKey =>
    refine hsetter (by rintro _ _ _ ⟨⟩) ?_
    unfold after run setPresharedKey
    dsimp only
    split
    · rfl
    · rfl
  | setPersistentKeepaliveRange low high =>
    refine hsetter (by rintro _ _ _ ⟨⟩) ?_
    unfold after run setPersistentKeepaliveRange
    dsimp only
    split
    · rfl
    · rfl
  | _ => exact hsetter (by rintro _ _ _ ⟨⟩) rfl

end Tunn

/-! ### Whole runs -/

/-- How a queued payload left the queue. -/
inductive Exit where
  | sent | dropped | expired
  deriving DecidableEq

namespace Handling

/-- What a call queued. -/
def admitted : Handling → List Bytes
  | queued payload => [payload]
  | _ => []

/-- What left the queue in a call, in that order. -/
def exits : Handling → List (Exit × Bytes)
  | drained dropped sent => dropped.map (.dropped, ·) ++ sent.toList.map (.sent, ·)
  | expired lost => lost.map (.expired, ·)
  | _ => []

/-- What left the queue. -/
def left (handling : Handling) : List Bytes := handling.exits.map Prod.snd

end Handling

namespace Tunn

/-- The tunnel after a call of a run. -/
def call (t : Tunn P) (event : Env P × Op P) : Tunn P := t.after event.1 event.2

/-- A call of a run is entered in the ledger as what it did. -/
def Enters (visit : Tunn P × Env P × Op P) (handling : Handling) : Prop :=
  visit.1.Handles visit.2.1 (visit.1.run visit.2.1 visit.2.2).1 (visit.1.call visit.2) visit.2.2
    handling

variable {t t' : Tunn P} {env : Env P} {op : Op P} {result : TunnResult} {handling : Handling}

theorem Submits.shifts {payload : Bytes} (h : t.Submits payload result t' handling) :
    Shifts handling.left handling.admitted t.packetQueue t'.packetQueue := by
  cases h with
  | refused herr hkeeps => exact (List.append_nil _).trans hkeeps.queue.symm
  | forwarded hresult hemitted hqueue hreport => exact (List.append_nil _).trans hqueue.symm
  | queued herr hroom hkeeps => exact hkeeps.queue.symm

theorem Handles.shifts (h : t.Handles env result t' op handling) :
    Shifts handling.left handling.admitted t.packetQueue t'.packetQueue := by
  cases h with
  | submitted h => exact h.shifts
  | polled h =>
    cases h with
    | keepalive h => exact h.shifts
    | expired hresult hqueue hreport =>
      rw [hqueue]
      simp [Shifts, Handling.left, Handling.exits, Handling.admitted, Function.comp_def]
    | kept h => exact (List.append_nil _).trans h.queue.symm
  | @drained source dst budget dropped sent h =>
    have hqueue := h.queue
    simpa [Shifts, Handling.left, Handling.exits, Handling.admitted, Function.comp_def] using hqueue
  | confirmed haccepted hresult hemitted hqueue hreport =>
    exact (List.append_nil _).trans hqueue.symm
  | kept hop h => exact (List.append_nil _).trans h.queue.symm

/-- No call makes the queue longer than it may be. -/
theorem Handles.length_le (h : t.Handles env result t' op handling)
    (hlen : t.packetQueue.length ≤ MAX_QUEUE_DEPTH) :
    t'.packetQueue.length ≤ MAX_QUEUE_DEPTH := by
  have hshifts := congrArg List.length h.shifts
  rw [List.length_append, List.length_append] at hshifts
  have hadmitted : handling.admitted.length = 0 ∨
      handling.admitted.length = 1 ∧ t.packetQueue.length < MAX_QUEUE_DEPTH := by
    have hsubmits {payload : Bytes} (h : t.Submits payload result t' handling) :
        handling.admitted.length = 0 ∨
          handling.admitted.length = 1 ∧ t.packetQueue.length < MAX_QUEUE_DEPTH := by
      cases h with
      | queued herr hroom hkeeps => exact .inr ⟨rfl, hroom⟩
      | _ => exact .inl rfl
    cases h with
    | submitted h => exact hsubmits h
    | polled h =>
      cases h with
      | keepalive h => exact hsubmits h
      | _ => exact .inl rfl
    | _ => exact .inl rfl
  omega

theorem IsNew.packetQueue (h : t.IsNew) : t.packetQueue = [] := h.blank.queue

end Tunn

/-- **Payload ownership.** Every run from a new tunnel has a ledger with one entry for each
call, in which an error of a write is a payload neither sent nor queued, and any other write
one that is sent at once or queued. The payloads queued, in the order of their submission, are
those that left the queue, each sent once, dropped with a report by a drain whose finite
transport budget its frame exceeds, or lost with the whole queue when the connection expired,
followed by those still queued, which are never more than 256. -/
theorem payload_ownership {t : Tunn P} (hnew : t.IsNew) (calls : List (Env P × Op P)) :
    (calls.foldl Tunn.call t).packetQueue.length ≤ 256 ∧
      ∃ ledger, List.Forall₂ Tunn.Enters (visits Tunn.call t calls) ledger ∧
        (ledger.flatMap Handling.exits).map Prod.snd ++ (calls.foldl Tunn.call t).packetQueue =
          ledger.flatMap Handling.admitted := by
  constructor
  · have hbound : ∀ (calls : List (Env P × Op P)) (t : Tunn P),
        t.packetQueue.length ≤ MAX_QUEUE_DEPTH →
          (calls.foldl Tunn.call t).packetQueue.length ≤ MAX_QUEUE_DEPTH := by
      intro calls
      induction calls with
      | nil => exact fun _ hlen => hlen
      | cons call calls ih =>
        intro t hlen
        obtain ⟨handling, hhandles⟩ := t.run_handles call.1 call.2
        exact ih _ (hhandles.length_le hlen)
    apply hbound
    rw [hnew.packetQueue]
    exact Nat.zero_le _
  · have hexists : ∃ ledger, List.Forall₂ Tunn.Enters (visits Tunn.call t calls) ledger :=
      exists_ledger (fun visit => visit.1.run_handles visit.2.1 visit.2.2) _
    obtain ⟨ledger, hledger⟩ := hexists
    refine ⟨ledger, hledger, ?_⟩
    have hshifts := shifts_flatMap Tunn.packetQueue Handling.left Handling.admitted
      (fun _ _ _ hentered => hentered.shifts) hledger
    rw [hnew.packetQueue, Shifts, List.nil_append] at hshifts
    rw [hshifts, List.map_flatMap]
    rfl

/-- A write without a session, and the response to the initiation it started. -/
def answeredCalls : List (Env bytePrimitives × Op bytePrimitives) :=
  let write : Op bytePrimitives := .encapsulate [69] byteBuffer .UNBOUNDED
  let initiation := (byteHome.run (byteEnv 1 5) write).1.datagram
  [(byteEnv 1 5, write),
    (byteEnv 1 5, byteReceive (bytePeer.deliver (byteEnv 1 4) initiation).1.datagram)]

/-- The payload of the write is in the ledger, and still in the queue. -/
theorem payload_ownership_answered :
    (answeredCalls.foldl Tunn.call byteHome).packetQueue = [[69]] ∧
      ∃ ledger, List.Forall₂ Tunn.Enters (visits Tunn.call byteHome answeredCalls) ledger ∧
        (ledger.flatMap Handling.exits).map Prod.snd ++ [[69]] =
          ledger.flatMap Handling.admitted := by
  have hqueue : (answeredCalls.foldl Tunn.call byteHome).packetQueue = [[69]] := by decide +kernel
  obtain ⟨-, hledger⟩ := payload_ownership (byteTunn_isNew 1 6 1) answeredCalls
  refine ⟨hqueue, ?_⟩
  rw [← hqueue]
  exact hledger

end BoringTun

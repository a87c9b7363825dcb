import BoringTun.Device.Peer
import BoringTun.Lib.Account
import BoringTun.Tunn.OneByte

/-!
The connected socket of a peer (`connect_endpoint` and `is_current_connection` in
`device/peer.rs`, the upgrade to a connected socket in `device/mod.rs`).

A handler outlives the socket it was registered for, so it asks, with the token it was given,
whether that socket is still the peer's. Two tokens are compared as allocations, and a handler
keeps its own alive: a new token is none of those that can still ask, which `nextLifetime` stands
for.

* `retired_never_current`: a token is current exactly while it is the last one committed, its
  connection has not been taken, and the endpoint is the address asked for.
-/

namespace BoringTun

/-- The identity of one committed socket. -/
abbrev ConnLifetime := Nat

/-- Why no socket was connected: there is one already or no address, the process is out of
descriptors, or anything else. -/
inductive ConnectError where
  | connect | exhaustion | other
  deriving DecidableEq

variable {P : Primitives}

/-- `opened` is what the calls that make, mark, bind and connect the socket gave. -/
def Peer.connectEndpoint (p : Peer P) (opened : Except ConnectError ConnRef) :
    Except ConnectError (Peer P) :=
  if p.endpoint.conn.isSome then .error .connect
  else
    match p.endpoint.addr, opened with
    | none, _ => .error .connect
    | some _, .error e => .error e
    | some addr, .ok conn => .ok { p with endpoint := ⟨some addr, some conn⟩ }

/-- A peer and the token of the socket last committed to its endpoint. -/
structure Connection (P : Primitives) where
  peer : Peer P
  connLifetime : Option ConnLifetime
  /-- Where the next token is allocated. -/
  nextLifetime : Nat

namespace Connection

inductive Event where
  /-- The socket calls, and whether the handler could be registered. -/
  | upgrade (opened : Except ConnectError ConnRef) (registered : Bool)
  | moveEndpoint (addr : SocketAddr) (resetWindow : Bool)
  | shutdownEndpoint

variable (c : Connection P)

def isCurrentConnection (lifetime : ConnLifetime) (endpoint : SocketAddr) : Bool :=
  c.peer.endpoint.conn.isSome && c.peer.endpoint.addr == some endpoint &&
    c.connLifetime == some lifetime

def commitConnectionLifetime : ConnLifetime × Connection P :=
  let lifetime := c.nextLifetime
  (lifetime, { c with connLifetime := some lifetime, nextLifetime := lifetime + 1 })

/-- What the listener does with a peer it has no connected socket for. -/
def upgrade (opened : Except ConnectError ConnRef) (registered : Bool) : Connection P :=
  match c.peer.connectEndpoint opened with
  | .error e => { c with peer.upgradeSuppressed := c.peer.upgradeSuppressed || e == .other }
  | .ok peer =>
    let (_, c) := { c with peer }.commitConnectionLifetime
    -- without a handler the socket would be a blackhole
    if registered then c else { c with peer.endpoint.conn := none }

def step : Event → Connection P
  | .upgrade opened registered => c.upgrade opened registered
  | .moveEndpoint addr resetWindow => { c with peer := c.peer.moveEndpoint addr resetWindow }
  | .shutdownEndpoint => { c with peer := c.peer.shutdownEndpoint }

/-! ### Histories -/

/-- The token of the connection an event commits. -/
def commits (v : Connection P × Event) : Option ConnLifetime :=
  match v.2 with
  | .upgrade opened _ =>
    if (v.1.peer.connectEndpoint opened).isOk then some v.1.commitConnectionLifetime.1 else none
  | _ => none

/-- The event takes the connection there is, the one it has committed included. -/
def takes (v : Connection P × Event) : Bool :=
  match v.2 with
  | .upgrade opened registered => (v.1.peer.connectEndpoint opened).isOk && !registered
  | .moveEndpoint addr _ => v.1.peer.endpoint.addr ≠ some (canonicalEndpoint addr)
  | .shutdownEndpoint => true

/-- The token of the last committed connection, if it has not been taken since; `held` before
the log. -/
def standing (held : Option ConnLifetime) (log : List (Connection P × Event)) :
    Option ConnLifetime :=
  log.foldl (fun held v => if takes v then none else (commits v).or held) held

/-- The token a handler must show now. -/
def current : Option ConnLifetime := c.peer.endpoint.conn.bind fun _ => c.connLifetime

theorem isCurrentConnection_iff {c : Connection P} {lifetime : ConnLifetime}
    {endpoint : SocketAddr} :
    c.isCurrentConnection lifetime endpoint = true ↔
      c.current = some lifetime ∧ c.peer.endpoint.addr = some endpoint := by
  cases hconn : c.peer.endpoint.conn with
  | none => simp [isCurrentConnection, current, hconn]
  | some conn => simp [isCurrentConnection, current, hconn, and_comm]

theorem conn_of_connectEndpoint {p p' : Peer P} {opened : Except ConnectError ConnRef}
    (h : p.connectEndpoint opened = .ok p') : ∃ conn, p'.endpoint.conn = some conn := by
  unfold Peer.connectEndpoint at h
  split at h
  · cases h
  · split at h
    · cases h
    · cases h
    · cases h
      exact ⟨_, rfl⟩

theorem current_step (event : Event) :
    (c.step event).current =
      if takes (c, event) then none else (commits (c, event)).or c.current := by
  cases event with
  | upgrade opened registered =>
    cases hopen : c.peer.connectEndpoint opened with
    | error e =>
      simp only [step, upgrade, takes, commits, hopen]
      rfl
    | ok peer =>
      obtain ⟨conn, hconn⟩ := conn_of_connectEndpoint hopen
      simp only [step, upgrade, takes, commits, hopen]
      cases registered with
      | true => simp [current, commitConnectionLifetime, hconn, Except.isOk, Except.toBool]
      | false => rfl
  | moveEndpoint addr resetWindow =>
    unfold step Peer.moveEndpoint takes commits
    dsimp only
    split
    · next hmoved => simp [current, hmoved]
    · next hsame => simp [current, hsame]
  | shutdownEndpoint => rfl

theorem current_run (events : List Event) :
    (events.foldl step c).current = standing c.current (visits step c events) := by
  induction events generalizing c with
  | nil => rfl
  | cons event events ih =>
    rw [List.foldl_cons, ih, current_step]
    rfl

/-- A token that is not held and not committed again stays so. -/
theorem standing_ne {lifetime : ConnLifetime} {held : Option ConnLifetime}
    {log : List (Connection P × Event)} (hheld : held ≠ some lifetime)
    (hfresh : ∀ v ∈ log, commits v ≠ some lifetime) : standing held log ≠ some lifetime := by
  induction log generalizing held with
  | nil => exact hheld
  | cons v log ih =>
    obtain ⟨hv, hlog⟩ := List.forall_mem_cons.mp hfresh
    refine ih ?_ hlog
    dsimp only
    split
    · nofun
    · cases hcommits : commits v with
      | none => exact hheld
      | some other => rwa [hcommits] at hv

/-- An event allocates the token it commits, and no other. -/
theorem nextLifetime_step (event : Event) :
    (c.step event).nextLifetime =
      c.nextLifetime + if (commits (c, event)).isSome then 1 else 0 := by
  cases event with
  | upgrade opened registered =>
    cases hopen : c.peer.connectEndpoint opened with
    | error e =>
      simp only [step, upgrade, commits, hopen]
      rfl
    | ok peer =>
      simp only [step, upgrade, commits, hopen]
      cases registered <;> rfl
  | moveEndpoint addr resetWindow => rfl
  | shutdownEndpoint => rfl

theorem commits_eq {v : Connection P × Event} {lifetime : Nat}
    (h : commits v = some lifetime) : lifetime = v.1.nextLifetime := by
  unfold commits at h
  split at h
  · split at h
    · exact (Option.some.inj h).symm
    · cases h
  · cases h

/-- The tokens a run commits are allocated in it. -/
theorem commits_allocated (events : List Event) :
    c.nextLifetime ≤ (events.foldl step c).nextLifetime ∧
      ∀ v ∈ visits step c events, ∀ lifetime : Nat, commits v = some lifetime →
        c.nextLifetime ≤ lifetime ∧ lifetime < (events.foldl step c).nextLifetime := by
  induction events generalizing c with
  | nil => exact ⟨Nat.le_refl _, fun _ hv => absurd hv List.not_mem_nil⟩
  | cons event events ih =>
    have hstep := c.nextLifetime_step event
    obtain ⟨hle, hrest⟩ := ih (c.step event)
    rw [List.foldl_cons]
    refine ⟨by omega, List.forall_mem_cons.mpr ⟨fun lifetime hcommits => ?_, ?_⟩⟩
    · have heq := commits_eq hcommits
      rw [hcommits, Option.isSome_some, if_pos rfl] at hstep
      dsimp only at heq
      omega
    · intro v hv lifetime hcommits
      have hbounds := hrest v hv lifetime hcommits
      omega

/-- **A retired handler is never current again.** On a peer that starts without a connected
socket, a token is current at an address exactly if it is that of the last committed
connection, the connection has not been taken since, and the address is the endpoint. One that
was committed and is no longer held is refused for ever. -/
theorem retired_never_current {start : Connection P} (hnone : start.peer.endpoint.conn = none)
    (events : List Event) :
    (∀ lifetime endpoint,
      (events.foldl step start).isCurrentConnection lifetime endpoint = true ↔
        standing none (visits step start events) = some lifetime ∧
          (events.foldl step start).peer.endpoint.addr = some endpoint) ∧
    ∀ later lifetime, lifetime ∈ (visits step start events).filterMap commits →
      standing none (visits step start events) ≠ some lifetime →
      ∀ endpoint,
        ((events ++ later).foldl step start).isCurrentConnection lifetime endpoint = false := by
  have hstart : start.current = none := by rw [current, hnone, Option.bind_none]
  constructor
  · intro lifetime endpoint
    rw [isCurrentConnection_iff, current_run, hstart]
  · intro later lifetime hmem hretired endpoint
    obtain ⟨v, hv, hcommits⟩ := List.mem_filterMap.mp hmem
    have hold := (start.commits_allocated events).2 v hv lifetime hcommits
    refine Bool.eq_false_iff.mpr fun hcurrent => ?_
    obtain ⟨hheld, -⟩ := isCurrentConnection_iff.mp hcurrent
    rw [List.foldl_append, current_run, current_run, hstart] at hheld
    refine standing_ne hretired (fun v hv hcommits => ?_) hheld
    have hnew := (commits_allocated _ later).2 v hv lifetime hcommits
    exact Nat.lt_irrefl _ (Nat.lt_of_lt_of_le hold.2 hnew.1)

/-- A peer at one port, connected, then at another, and back. -/
def thereAndBack : List Event :=
  [.upgrade (.ok 5) true, .moveEndpoint (.v4 1 2) true, .moveEndpoint (.v4 1 1) true]

/-- The second socket is connected to the address of the first, whose handler stays retired. -/
theorem retired_never_current_thereAndBack :
    ((thereAndBack ++ [Event.upgrade (.ok 6) true]).foldl step
        ⟨.new byteHome 1 (some (.v4 1 1)) none, none, 0⟩).isCurrentConnection 1 (.v4 1 1) = true ∧
      ((thereAndBack ++ [Event.upgrade (.ok 6) true]).foldl step
        ⟨.new byteHome 1 (some (.v4 1 1)) none, none, 0⟩).isCurrentConnection 0 (.v4 1 1) = false :=
  ⟨by decide +kernel, (retired_never_current rfl thereAndBack).2 _ 0 (by decide +kernel)
    (by decide +kernel) _⟩

end Connection

end BoringTun

import BoringTun.Lib.Bytes
import BoringTun.Lib.Cuts
import BoringTun.Lib.Machine

/-!
The stream transport of the configuration interface (`device/api_transport.rs`).

A connection gathers what it reads, executes the first complete frame, writes out the reply and
goes on. `Connection.step` is one dispatch; what the socket gave it is a parameter, and what it
did to the socket and the device, in order, is a list of effects. `Session` is the connection
with the bytes its client sends.
-/

namespace BoringTun.Uapi

def MAX_REQUEST : Nat := 1024 * 1024
def MAX_RESPONSE : Nat := 4 * 1024 * 1024
def TRANSACTION_TIMEOUT : Nat := 5 * 10 ^ 9
def IO_BUDGET : Nat := 64 * 1024

def EIO_CODE : Nat := 5
def E2BIG : Nat := 7
def EOVERFLOW : Nat := 75

/-- A reply in the making. -/
structure Response where
  bytes : Bytes := []
  overflow : Bool := false

namespace Response

/-- Nothing is appended once something did not fit. -/
def write (r : Response) (bytes : Bytes) : Response :=
  if r.overflow || bytes.length > MAX_RESPONSE - r.bytes.length then { r with overflow := true }
  else { r with bytes := r.bytes ++ bytes }

/-- The pieces a formatted line is written in. -/
def writeErrno (r : Response) (status : Nat) : Response :=
  ((r.write (ascii "errno=")).write (ascii (toString status))).write (ascii "\n\n")

end Response

/-- What a dispatch asks the event loop for. -/
inductive Action where
  | waitForRead
  | waitForWrite
  | close
  deriving DecidableEq

/-- What a dispatch did, in order. -/
inductive Effect where
  | wrote (bytes : Bytes)
  | took (bytes : Bytes)
  /-- The client has closed its end. -/
  | ended
  | executed (frame : Bytes)
  | refused
  | replied (bytes : Bytes)

/-- What the socket makes of a read or a write: how much, or that it would block or was
interrupted, or that it failed. -/
inductive Attempted (β : Type) where
  | ok (done : β)
  | again
  | failed

/-- What the commands do with a device: `api_get` writes pieces of a reply, `api_set` reads the
lines of a frame, and both give a status. -/
structure Api (σ : Type*) where
  get : σ → List Bytes × Nat
  set : Bytes → σ → Nat × σ

structure Connection where
  inherited : Bool
  input : Bytes
  scanned : Nat
  output : Response
  written : Nat
  readDeadline : Option Nat
  writeDeadline : Option Nat
  closeAfterWrite : Bool
  expired : Bool

/-- The end of a frame: an empty line. -/
def isBlankLine (a b : UInt8) : Bool := a == 10 && b == 10

namespace Connection

def new (inherited : Bool) (now : Nat) : Connection where
  inherited := inherited
  input := []
  scanned := 0
  output := {}
  written := 0
  readDeadline := if inherited then none else some (now + TRANSACTION_TIMEOUT)
  writeDeadline := none
  closeAfterWrite := !inherited
  expired := false

variable {σ : Type*} (api : Api σ) (c : Connection)

def timedOut (now : Nat) : Bool := (c.writeDeadline.or c.readDeadline).any fun stop => now ≥ stop

def frameEnd : Option Nat × Connection :=
  (cutFrom isBlankLine c.scanned c.input, { c with scanned := c.input.length - 1 })

def respond (status now : Nat) : Connection :=
  let output := c.output.writeErrno status
  let output := if output.overflow then Response.writeErrno {} EOVERFLOW else output
  { c with output := output, writeDeadline := some (now + TRANSACTION_TIMEOUT) }

/-- Execute the frame of `stop` bytes at the head of the input. -/
def processFrame (stop : Nat) (d : σ) (now : Nat) : Connection × σ :=
  let frame := c.input.take stop
  let c := { c with input := c.input.drop stop, scanned := 0 }
  let c := if c.input.isEmpty then { c with readDeadline := none } else c
  let (c, status, d) :=
    if frame = ascii "get=1\n\n" then
      let (pieces, status) := api.get d
      ({ c with output := pieces.foldl Response.write c.output }, status, d)
    else if (ascii "set=1\n").isPrefixOf frame then
      let (status, d) := api.set (frame.drop 6) d
      (c, status, d)
    else (c, EIO_CODE, d)
  (c.respond status now, d)

def refuseOversizedRequest (now : Nat) : Connection :=
  { c with input := [], scanned := 0, closeAfterWrite := true }.respond E2BIG now

/-- Execute a frame, or refuse a request there is no room for the rest of; the connection is given
back if there is neither. -/
def serve (d : σ) (now : Nat) : Except Connection (Connection × σ × List Effect) :=
  let (found, c) := c.frameEnd
  match found with
  | some stop =>
    let (c', d) := c.processFrame api stop d now
    .ok (c', d, [.executed (c.input.take stop), .replied c'.output.bytes])
  | none =>
    if c.input.length = MAX_REQUEST then
      let c := c.refuseOversizedRequest now
      .ok (c, d, [.refused, .replied c.output.bytes])
    else .error c

/-- Take in what was read. -/
def absorb (d : σ) (now : Nat) (bytes : Bytes) : Action × Connection × σ × List Effect :=
  let c := { c with
    readDeadline := some (c.readDeadline.getD (now + TRANSACTION_TIMEOUT))
    input := c.input ++ bytes }
  match c.serve api d now with
  | .ok (c, d, effects) => (.waitForWrite, c, d, .took bytes :: effects)
  | .error c => (.waitForRead, c, d, [.took bytes])

/-- What comes after the reply: a frame that is there already, or else a read. -/
def proceed (d : σ) (now : Nat) (read : Attempted Bytes) :
    Action × Connection × σ × List Effect :=
  match c.serve api d now with
  | .ok (c, d, effects) => (.waitForWrite, c, d, effects)
  | .error c =>
    match read with
    | .failed => (.close, c, d, [])
    | .again => (.waitForRead, c, d, [])
    -- an incomplete frame is never applied
    | .ok [] => (.close, c, d, [.ended])
    | .ok bytes => c.absorb api d now bytes

/-- Write some of the reply, and go on when all of it is written. -/
def flush (d : σ) (now : Nat) (write : Attempted Nat) (read : Attempted Bytes) :
    Action × Connection × σ × List Effect :=
  match write with
  | .failed => (.close, c, d, [])
  | .again => (.waitForWrite, c, d, [])
  | .ok 0 => (.close, c, d, [])
  | .ok n =>
    let wrote := .wrote ((c.output.bytes.drop c.written).take n)
    let c := { c with written := c.written + n }
    if c.written ≠ c.output.bytes.length then (.waitForWrite, c, d, [wrote])
    else
      let c := { c with output := {}, written := 0, writeDeadline := none }
      if c.closeAfterWrite then (.close, c, d, [wrote])
      else
        let (action, c, d, effects) := c.proceed api d now read
        (action, c, d, wrote :: effects)

/-- One dispatch. -/
def step (d : σ) (now : Nat) (write : Attempted Nat) (read : Attempted Bytes) :
    Action × Connection × σ × List Effect :=
  if c.expired || c.timedOut now then (.close, c, d, [])
  else if !c.output.bytes.isEmpty then c.flush api d now write read
  else c.proceed api d now read

end Connection

/-! ### Replies -/

namespace Response

theorem write_fits {r : Response} {bytes : Bytes} (h : (r.write bytes).overflow = false) :
    (r.write bytes).bytes = r.bytes ++ bytes := by
  unfold write at h ⊢
  split at h
  · cases h
  · next hfits => rw [if_neg hfits]

theorem writeErrno_fits {r : Response} {status : Nat} (h : (r.writeErrno status).overflow = false) :
    (r.writeErrno status).bytes ≠ [] := by
  unfold writeErrno at h ⊢
  rw [write_fits h]
  exact List.append_ne_nil_of_right_ne_nil _ (by decide)

end Response

/-- What a frame does to the device. -/
def Api.execute {σ : Type*} (api : Api σ) (d : σ) (frame : Bytes) : σ :=
  if frame = ascii "get=1\n\n" then d
  else if (ascii "set=1\n").isPrefixOf frame then (api.set (frame.drop 6) d).2
  else d

namespace Connection

variable {σ : Type*} {api : Api σ} {c c' : Connection} {d d' : σ} {now stop : Nat}
  {effects : List Effect}

/-- No reply is empty. -/
theorem respond_output (c : Connection) (status now : Nat) :
    (c.respond status now).output.bytes ≠ [] := by
  unfold respond
  dsimp only
  split
  · decide
  · next hfits => exact Response.writeErrno_fits (Bool.eq_false_iff.mpr hfits)

/-- A connection that has a reply to write, and is to forget the rest of its input or not. -/
structure Answered (c : Connection) (input : Bytes) (last : Bool) (c' : Connection) : Prop where
  inherited : c'.inherited = c.inherited
  input : c'.input = input
  scanned : c'.scanned = 0
  output : c'.output.bytes ≠ []
  written : c'.written = c.written
  closeAfterWrite : c'.closeAfterWrite = (c.closeAfterWrite || last)
  expired : c'.expired = c.expired

theorem processFrame_answered (api : Api σ) (c : Connection) (stop : Nat) (d : σ) (now : Nat) :
    c.Answered (c.input.drop stop) false (c.processFrame api stop d now).1 ∧
      (c.processFrame api stop d now).2 = api.execute d (c.input.take stop) := by
  have hanswered (c₁ : Connection) (status : Nat) (hinherited : c₁.inherited = c.inherited)
      (hinput : c₁.input = c.input.drop stop) (hscanned : c₁.scanned = 0)
      (hwritten : c₁.written = c.written) (hclose : c₁.closeAfterWrite = c.closeAfterWrite)
      (hexpired : c₁.expired = c.expired) :
      c.Answered (c.input.drop stop) false (c₁.respond status now) :=
    ⟨hinherited, hinput, hscanned, c₁.respond_output status now, hwritten,
      hclose.trans (Bool.or_false _).symm, hexpired⟩
  unfold processFrame Api.execute
  dsimp only
  generalize hrest : (if (c.input.drop stop).isEmpty = true then _ else _ : Connection) = c₁
  have hc₁ : c₁.inherited = c.inherited ∧ c₁.input = c.input.drop stop ∧ c₁.scanned = 0 ∧
      c₁.written = c.written ∧ c₁.closeAfterWrite = c.closeAfterWrite ∧ c₁.expired = c.expired := by
    rw [← hrest]
    split <;> exact ⟨rfl, rfl, rfl, rfl, rfl, rfl⟩
  obtain ⟨h₁, h₂, h₃, h₄, h₅, h₆⟩ := hc₁
  by_cases hget : c.input.take stop = ascii "get=1\n\n"
  · rw [if_pos hget, if_pos hget]
    exact ⟨hanswered _ _ h₁ h₂ h₃ h₄ h₅ h₆, rfl⟩
  · rw [if_neg hget, if_neg hget]
    by_cases hset : (ascii "set=1\n").isPrefixOf (c.input.take stop) = true
    · rw [if_pos hset, if_pos hset]
      exact ⟨hanswered _ _ h₁ h₂ h₃ h₄ h₅ h₆, rfl⟩
    · rw [if_neg hset, if_neg hset]
      exact ⟨hanswered _ _ h₁ h₂ h₃ h₄ h₅ h₆, rfl⟩

/-- No frame ends in what was searched already. -/
structure Scanned (c : Connection) : Prop where
  none : cut isBlankLine (c.input.take (c.scanned + 1)) = none
  le : c.scanned ≤ c.input.length - 1

theorem Scanned.frameEnd (h : c.Scanned) : c.frameEnd.1 = cut isBlankLine c.input :=
  cutFrom_eq h.none

/-- What was searched stays so when more comes in. -/
theorem Scanned.fill (hnone : cut isBlankLine c.input = Option.none) (bytes : Bytes)
    (deadline : Option Nat) : Scanned { c with
      scanned := c.input.length - 1, input := c.input ++ bytes, readDeadline := deadline } where
  none := by
    dsimp only
    rcases Nat.eq_zero_or_pos c.input.length with hempty | hpos
    · apply cut_of_length_le
      rw [List.length_take]
      omega
    · rw [show c.input.length - 1 + 1 = c.input.length by omega, List.take_left]
      exact hnone
  le := by
    dsimp only
    rw [List.length_append]
    omega

/-- What serving the input can come to. -/
inductive Serves (api : Api σ) (c : Connection) (d : σ) :
    Except Connection (Connection × σ × List Effect) → Prop where
  | executed {stop : Nat} {c' : Connection} (hcut : cut isBlankLine c.input = some stop)
    (hanswered : c.Answered (c.input.drop stop) false c') :
    Serves api c d (.ok (c', api.execute d (c.input.take stop),
      [.executed (c.input.take stop), .replied c'.output.bytes]))
  | refused {c' : Connection} (hcut : cut isBlankLine c.input = none)
    (hfull : c.input.length = MAX_REQUEST) (hanswered : c.Answered [] true c')
    (hreply : c.output = {} → c'.output.bytes = ascii "errno=7\n\n") :
    Serves api c d (.ok (c', d, [.refused, .replied c'.output.bytes]))
  | nothing (hcut : cut isBlankLine c.input = none) (hroom : c.input.length ≠ MAX_REQUEST) :
    Serves api c d (.error { c with scanned := c.input.length - 1 })

theorem serve_serves (h : c.Scanned) (api : Api σ) (d : σ) (now : Nat) :
    Serves api c d (c.serve api d now) := by
  have hfound := h.frameEnd
  unfold serve
  dsimp only
  split
  · next stop hstop =>
    rw [hfound] at hstop
    obtain ⟨hanswered, hdevice⟩ := processFrame_answered api c.frameEnd.2 stop d now
    rw [hdevice]
    exact .executed hstop ⟨hanswered.inherited, hanswered.input, hanswered.scanned,
      hanswered.output, hanswered.written, hanswered.closeAfterWrite, hanswered.expired⟩
  · next hnone =>
    rw [hfound] at hnone
    split
    · next hfull =>
      refine .refused hnone hfull ⟨rfl, rfl, rfl, respond_output _ _ _, rfl, (Bool.or_true _).symm,
        rfl⟩ fun hempty => ?_
      change (if (c.output.writeErrno E2BIG).overflow then Response.writeErrno {} EOVERFLOW
        else c.output.writeErrno E2BIG : Response).bytes = _
      rw [hempty]
      decide
    · next hroom => exact .nothing hnone hroom

end Connection

/-! ### What was done -/

namespace Effect

/-- The bytes read. -/
def taken (effects : List Effect) : Bytes :=
  effects.flatMap fun
    | .took bytes => bytes
    | _ => []

/-- The frames executed. -/
def frames (effects : List Effect) : List Bytes :=
  effects.filterMap fun
    | .executed frame => some frame
    | _ => none

def isRefused (effects : List Effect) : Bool :=
  effects.any fun
    | .refused => true
    | _ => false

def isEnded (effects : List Effect) : Bool :=
  effects.any fun
    | .ended => true
    | _ => false

variable {effects more : List Effect}

theorem taken_append : taken (effects ++ more) = taken effects ++ taken more :=
  List.flatMap_append

theorem frames_append : frames (effects ++ more) = frames effects ++ frames more :=
  List.filterMap_append

theorem isRefused_append : isRefused (effects ++ more) = (isRefused effects || isRefused more) :=
  List.any_append

theorem isEnded_append : isEnded (effects ++ more) = (isEnded effects || isEnded more) :=
  List.any_append

/-- What neither refuses, ends nor executes. -/
theorem still (effects more : List Effect) (hrefused : isRefused more = false)
    (hended : isEnded more = false) (hframes : frames more = []) :
    isRefused (effects ++ more) = isRefused effects ∧
      isEnded (effects ++ more) = isEnded effects ∧ frames (effects ++ more) = frames effects := by
  rw [isRefused_append, isEnded_append, frames_append, hrefused, hended, hframes, Bool.or_false,
    Bool.or_false, List.append_nil]
  exact ⟨rfl, rfl, rfl⟩

end Effect

/-- One reply is formed for each frame, and written out before anything more is read or executed.
The last argument is what is left of the last reply. -/
inductive Exchange : List Effect → Bytes → Prop where
  | start : Exchange [] []
  | took {effects : List Effect} (h : Exchange effects []) (bytes : Bytes) :
    Exchange (effects ++ [.took bytes]) []
  | ended {effects : List Effect} (h : Exchange effects []) : Exchange (effects ++ [.ended]) []
  | executed {effects : List Effect} (h : Exchange effects []) (frame reply : Bytes) :
    Exchange (effects ++ [.executed frame, .replied reply]) reply
  | refused {effects : List Effect} (h : Exchange effects []) :
    Exchange (effects ++ [.refused, .replied (ascii "errno=7\n\n")]) (ascii "errno=7\n\n")
  | wrote {effects : List Effect} {bytes rest : Bytes} (h : Exchange effects (bytes ++ rest)) :
    Exchange (effects ++ [.wrote bytes]) rest

/-! ### Sessions -/

/-- A connection, what its client has still to send, and what was done so far. -/
structure Session (σ : Type*) where
  conn : Connection
  device : σ
  pending : Bytes
  effects : List Effect
  closed : Bool

namespace Session

variable {σ : Type*}

/-- A client connects that will send `stream`. -/
def connect (inherited : Bool) (stream : Bytes) (d : σ) (now : Nat) : Session σ where
  conn := .new inherited now
  device := d
  pending := stream
  effects := []
  closed := false

/-- What the socket may offer a dispatch: part of the reply is taken, and some of what the client
has sent is given, or the end of it. No deadline has passed. -/
structure Offered (s : Session σ) (now : Nat) (write : Attempted Nat) (read : Attempted Bytes) :
    Prop where
  inTime : s.conn.timedOut now = false
  write : ∀ n, write = .ok n →
    n ≤ min IO_BUDGET (s.conn.output.bytes.length - s.conn.written)
  read : ∀ bytes, read = .ok bytes → bytes <+: s.pending ∧
    bytes.length ≤ min IO_BUDGET (MAX_REQUEST - s.conn.input.length) ∧
      (bytes = [] → s.pending = [])

def next (api : Api σ) (s : Session σ) (now : Nat) (write : Attempted Nat)
    (read : Attempted Bytes) : Session σ :=
  let (action, conn, device, effects) := s.conn.step api s.device now write read
  { conn := conn
    device := device
    pending := s.pending.drop (Effect.taken effects).length
    effects := s.effects ++ effects
    closed := action = .close }

/-- One dispatch of an open connection. -/
def Dispatch (api : Api σ) (s s' : Session σ) : Prop :=
  s.closed = false ∧
    ∃ now write read, s.Offered now write read ∧ s' = s.next api now write read

/-- What holds of everything that was done: `rest` is what followed the last cut, and `owed` what is
left of the last reply. -/
structure Kept (api : Api σ) (stream : Bytes) (d₀ : σ) (effects : List Effect) (d : σ)
    (pending rest owed : Bytes) : Prop where
  exchange : Exchange effects owed
  arrived : Effect.taken effects ++ pending = stream
  cuts : Cuts isBlankLine (Effect.taken effects) (Effect.frames effects) rest
  device : d = (Effect.frames effects).foldl api.execute d₀

/-- What the connection keeps besides while it is served. -/
structure Open (inherited : Bool) (c : Connection) : Prop where
  scanned : c.Scanned
  room : c.input.length < MAX_REQUEST
  close : c.closeAfterWrite = !inherited
  expired : c.expired = false

/-- Where a session can stand. -/
inductive Framed (api : Api σ) (inherited : Bool) (stream : Bytes) (d₀ : σ) (s : Session σ) :
    Prop where
  /-- No frame is complete. -/
  | waiting (h : Kept api stream d₀ s.effects s.device s.pending s.conn.input [])
    (hopen : Open inherited s.conn) (houtput : s.conn.output = {} ∧ s.conn.written = 0)
    (hcut : cut isBlankLine s.conn.input = none) (hrefused : Effect.isRefused s.effects = false)
    (hended : Effect.isEnded s.effects = true → s.closed = true ∧ s.pending = [])
    (hfirst : inherited = false → Effect.frames s.effects = [])
  | replying (h : Kept api stream d₀ s.effects s.device s.pending s.conn.input
      (s.conn.output.bytes.drop s.conn.written)) (hopen : Open inherited s.conn)
    (hwritten : s.conn.written < s.conn.output.bytes.length)
    (hrefused : Effect.isRefused s.effects = false) (hended : Effect.isEnded s.effects = false)
    (hfirst : inherited = false → (Effect.frames s.effects).length = 1)
  | refusing {rest : Bytes} (h : Kept api stream d₀ s.effects s.device s.pending rest
      (s.conn.output.bytes.drop s.conn.written))
    (hfull : rest.length = MAX_REQUEST) (hcut : cut isBlankLine rest = none)
    (hwritten : s.conn.written < s.conn.output.bytes.length)
    (hclose : s.conn.closeAfterWrite = true) (hexpired : s.conn.expired = false)
    (hrefused : Effect.isRefused s.effects = true) (hended : Effect.isEnded s.effects = false)
    (hfirst : inherited = false → Effect.frames s.effects = [])
  /-- The last reply is written. -/
  | finished {rest : Bytes} (h : Kept api stream d₀ s.effects s.device s.pending rest [])
    (hclosed : s.closed = true) (hended : Effect.isEnded s.effects = false)
    (hlast : Effect.isRefused s.effects = false ∧ inherited = false ∧
        (Effect.frames s.effects).length = 1 ∧ rest.length < MAX_REQUEST ∨
      Effect.isRefused s.effects = true ∧ rest.length = MAX_REQUEST ∧
        cut isBlankLine rest = none ∧ (inherited = false → Effect.frames s.effects = []))

variable {api : Api σ} {inherited : Bool} {stream : Bytes} {d₀ d d' : σ} {s s' : Session σ}
  {c c' : Connection} {effects more : List Effect} {pending rest owed : Bytes} {now : Nat}

namespace Kept

theorem took (h : Kept api stream d₀ effects d pending rest []) {bytes : Bytes}
    (hoffered : bytes <+: pending) : Kept api stream d₀ (effects ++ [.took bytes]) d
      (pending.drop bytes.length) (rest ++ bytes) [] := by
  have htaken : Effect.taken (effects ++ [.took bytes]) = Effect.taken effects ++ bytes := by
    rw [Effect.taken_append]
    exact congrArg (_ ++ ·) (List.append_nil bytes)
  have hframes : Effect.frames (effects ++ [.took bytes]) = Effect.frames effects := by
    rw [Effect.frames_append]
    exact List.append_nil _
  refine ⟨h.exchange.took bytes, ?_, ?_, ?_⟩
  · obtain ⟨later, rfl⟩ := hoffered
    rw [htaken, List.drop_left, List.append_assoc]
    exact h.arrived
  · rw [htaken, hframes]
    exact h.cuts.append bytes
  · rw [hframes]
    exact h.device

/-- What neither reads nor executes changes the exchange only. -/
theorem silent (h : Kept api stream d₀ effects d pending rest owed) {owed' : Bytes}
    (hexchange : Exchange (effects ++ more) owed') (htaken : Effect.taken more = [])
    (hframes : Effect.frames more = []) :
    Kept api stream d₀ (effects ++ more) d pending rest owed' where
  exchange := hexchange
  arrived := by
    rw [Effect.taken_append, htaken, List.append_nil]
    exact h.arrived
  cuts := by
    rw [Effect.taken_append, Effect.frames_append, htaken, hframes, List.append_nil,
      List.append_nil]
    exact h.cuts
  device := by
    rw [Effect.frames_append, hframes, List.append_nil]
    exact h.device

theorem executed (h : Kept api stream d₀ effects d pending rest []) {stop : Nat}
    (hcut : cut isBlankLine rest = some stop) (reply : Bytes) :
    Kept api stream d₀ (effects ++ [.executed (rest.take stop), .replied reply])
      (api.execute d (rest.take stop)) pending (rest.drop stop) reply where
  exchange := h.exchange.executed _ _
  arrived := by
    rw [Effect.taken_append]
    change Effect.taken effects ++ [] ++ pending = stream
    rw [List.append_nil]
    exact h.arrived
  cuts := by
    rw [Effect.taken_append, Effect.frames_append]
    change Cuts isBlankLine (Effect.taken effects ++ []) (Effect.frames effects ++ [_]) _
    rw [List.append_nil]
    exact h.cuts.snoc hcut
  device := by
    rw [Effect.frames_append, List.foldl_append, ← h.device]
    rfl

end Kept

/-- Serving the input leaves a reply to write. -/
theorem framed_of_serves (h : Kept api stream d₀ effects d pending c.input [])
    (hle : c.input.length ≤ MAX_REQUEST) (hclose : c.closeAfterWrite = !inherited)
    (hexpired : c.expired = false) (houtput : c.output = {} ∧ c.written = 0)
    (hrefused : Effect.isRefused effects = false) (hended : Effect.isEnded effects = false)
    (hfirst : inherited = false → Effect.frames effects = [])
    (hserves : Connection.Serves api c d (.ok (c', d', more))) :
    Effect.taken more = [] ∧
      Framed api inherited stream d₀ ⟨c', d', pending, effects ++ more, false⟩ := by
  cases hserves with
  | @executed stop _ hcut hanswered =>
    refine ⟨rfl, .replying ?_ ?_ ?_ ?_ ?_ ?_⟩
    · dsimp only
      rw [hanswered.input, hanswered.written, houtput.2, List.drop_zero]
      exact h.executed hcut _
    · have hbounds := cut_le hcut
      refine ⟨⟨?_, ?_⟩, ?_, ?_, ?_⟩
      · apply cut_of_length_le
        rw [hanswered.scanned, List.length_take]
        exact Nat.min_le_left _ _
      · rw [hanswered.scanned]
        exact Nat.zero_le _
      · rw [hanswered.input, List.length_drop]
        omega
      · rw [hanswered.closeAfterWrite, Bool.or_false]
        exact hclose
      · exact hanswered.expired.trans hexpired
    · dsimp only
      rw [hanswered.written, houtput.2]
      exact List.length_pos_of_ne_nil hanswered.output
    · exact Effect.isRefused_append.trans (by rw [hrefused]; rfl)
    · exact Effect.isEnded_append.trans (by rw [hended]; rfl)
    · intro hordinary
      dsimp only
      rw [Effect.frames_append, hfirst hordinary]
      rfl
  | refused hcut hfull hanswered hreply =>
    refine ⟨rfl, .refusing ?_ hfull hcut ?_ ?_ ?_ ?_ ?_ ?_⟩
    · dsimp only
      rw [hanswered.written, houtput.2, List.drop_zero, hreply houtput.1]
      exact h.silent h.exchange.refused rfl rfl
    · dsimp only
      rw [hanswered.written, houtput.2]
      exact List.length_pos_of_ne_nil hanswered.output
    · dsimp only
      rw [hanswered.closeAfterWrite, Bool.or_true]
    · exact hanswered.expired.trans hexpired
    · exact Effect.isRefused_append.trans (Bool.or_true _)
    · exact Effect.isEnded_append.trans (by rw [hended]; rfl)
    · exact fun hordinary => Effect.frames_append.trans (by rw [hfirst hordinary]; rfl)

/-- The session after some more was done. -/
def after (pending : Bytes) (effects : List Effect)
    (out : Action × Connection × σ × List Effect) : Session σ where
  conn := out.2.1
  device := out.2.2.1
  pending := pending.drop (Effect.taken out.2.2.2).length
  effects := effects ++ out.2.2.2
  closed := out.1 = .close

/-- The bytes read may complete a frame, or leave no room for one. -/
theorem absorb_framed (h : Kept api stream d₀ effects d pending c.input [])
    (hopen : Open inherited c) (houtput : c.output = {} ∧ c.written = 0)
    (hcut : cut isBlankLine c.input = none) (hscanned : c.scanned = c.input.length - 1)
    (hrefused : Effect.isRefused effects = false) (hended : Effect.isEnded effects = false)
    (hfirst : inherited = false → Effect.frames effects = []) {bytes : Bytes}
    (hoffered : bytes <+: pending) (hlength : bytes.length ≤ MAX_REQUEST - c.input.length) :
    Framed api inherited stream d₀ (after pending effects (c.absorb api d now bytes)) := by
  have htook := h.took hoffered
  obtain ⟨hrefusal, hend, hframes⟩ := Effect.still effects [.took bytes] rfl rfl rfl
  rw [← hrefusal] at hrefused
  rw [← hend] at hended
  rw [← hframes] at hfirst
  have hroom := hopen.room
  unfold Connection.absorb
  generalize hfilled : ({ c with
    readDeadline := some (c.readDeadline.getD (now + TRANSACTION_TIMEOUT))
    input := c.input ++ bytes } : Connection) = c₁
  have hinput : c₁.input = c.input ++ bytes := by rw [← hfilled]
  have hlength₁ : c₁.input.length ≤ MAX_REQUEST := by
    rw [hinput, List.length_append]
    omega
  have hscanned₁ : c₁.Scanned := by
    have hfill := Connection.Scanned.fill hcut bytes
      (some (c.readDeadline.getD (now + TRANSACTION_TIMEOUT)))
    rw [← hfilled]
    rw [← hscanned] at hfill
    exact hfill
  rw [← hinput] at htook
  have hserves := Connection.serve_serves hscanned₁ api d now
  dsimp only
  generalize c₁.serve api d now = served at hserves
  cases served with
  | ok out =>
    obtain ⟨c', d', more⟩ := out
    obtain ⟨htaken, hframed⟩ := framed_of_serves htook hlength₁ (by rw [← hfilled]; exact hopen.close)
      (by rw [← hfilled]; exact hopen.expired) (by rw [← hfilled]; exact houtput) hrefused
      hended hfirst hserves
    unfold after
    dsimp only
    have htaken' : Effect.taken (.took bytes :: more) = bytes := by
      change bytes ++ Effect.taken more = bytes
      rw [htaken, List.append_nil]
    rw [htaken', List.append_cons]
    exact hframed
  | error c' =>
    cases hserves with
    | nothing hcut₁ hroom₁ =>
      have htaken : Effect.taken [.took bytes] = bytes := List.append_nil bytes
      have hopen₁ : Open inherited { c₁ with scanned := c₁.input.length - 1 } := by
        have hfill := Connection.Scanned.fill hcut₁ [] c₁.readDeadline
        rw [List.append_nil] at hfill
        refine ⟨hfill, Nat.lt_of_le_of_ne hlength₁ hroom₁, ?_, ?_⟩
        · rw [← hfilled]
          exact hopen.close
        · rw [← hfilled]
          exact hopen.expired
      unfold after
      dsimp only
      rw [htaken]
      refine .waiting htook hopen₁ ?_ hcut₁ hrefused
        (fun hyes => absurd (hended.symm.trans hyes) Bool.false_ne_true) hfirst
      rw [← hfilled]
      exact houtput

/-- With no reply to write, a connection goes on to its next frame. -/
theorem proceed_framed (h : Kept api stream d₀ effects d pending c.input [])
    (hopen : Open inherited c) (houtput : c.output = {} ∧ c.written = 0)
    (hrefused : Effect.isRefused effects = false) (hended : Effect.isEnded effects = false)
    (hfirst : inherited = false → Effect.frames effects = []) {read : Attempted Bytes}
    (hread : ∀ bytes, read = .ok bytes → bytes <+: pending ∧
      bytes.length ≤ min IO_BUDGET (MAX_REQUEST - c.input.length) ∧ (bytes = [] → pending = [])) :
    Framed api inherited stream d₀ (after pending effects (c.proceed api d now read)) := by
  have hserves := Connection.serve_serves hopen.scanned api d now
  unfold Connection.proceed
  generalize c.serve api d now = served at hserves
  cases hserves' : served with
  | ok out =>
    obtain ⟨c', d', more⟩ := out
    rw [hserves'] at hserves
    obtain ⟨htaken, hframed⟩ := framed_of_serves h (Nat.le_of_lt hopen.room) hopen.close
      hopen.expired houtput hrefused hended hfirst hserves
    unfold after
    dsimp only
    rw [htaken]
    exact hframed
  | error c' =>
    rw [hserves'] at hserves
    cases hserves with
    | nothing hcut hroom =>
      have hscanned := Connection.Scanned.fill hcut [] c.readDeadline
      rw [List.append_nil] at hscanned
      have hopen' : Open inherited { c with scanned := c.input.length - 1 } :=
        ⟨hscanned, hopen.room, hopen.close, hopen.expired⟩
      have hquiet (closed : Bool) : Framed api inherited stream d₀
          ⟨{ c with scanned := c.input.length - 1 }, d, pending, effects ++ [], closed⟩ := by
        rw [List.append_nil]
        exact .waiting h hopen' houtput hcut hrefused
          (fun hyes => absurd (hended.symm.trans hyes) Bool.false_ne_true) hfirst
      cases read with
      | failed => exact hquiet true
      | again => exact hquiet false
      | ok bytes =>
        obtain ⟨hoffered, hlength, hend⟩ := hread bytes rfl
        cases bytes with
        | nil =>
          refine .waiting (h.silent h.exchange.ended rfl rfl) hopen' houtput hcut ?_
            (fun _ => ⟨rfl, hend rfl⟩) fun hordinary => ?_
          · exact Effect.isRefused_append.trans (by rw [hrefused]; rfl)
          · exact Effect.frames_append.trans (by rw [hfirst hordinary]; rfl)
        | cons byte bytes =>
          exact absorb_framed (c := { c with scanned := c.input.length - 1 }) h hopen' houtput hcut
            rfl hrefused hended hfirst hoffered (Nat.le_trans hlength (Nat.min_le_right _ _))

theorem next_eq (s : Session σ) (now : Nat) (write : Attempted Nat) (read : Attempted Bytes) :
    s.next api now write read = after s.pending s.effects (s.conn.step api s.device now write read) :=
  rfl

/-- Some more of the reply is written. -/
theorem Kept.wrote {reply : Bytes} {written : Nat}
    (h : Kept api stream d₀ effects d pending rest (reply.drop written)) (n : Nat) :
    Kept api stream d₀ (effects ++ [.wrote ((reply.drop written).take n)]) d pending rest
      (reply.drop (written + n)) := by
  apply h.silent _ rfl rfl
  apply Exchange.wrote
  rw [← List.drop_drop, List.take_append_drop]
  exact h.exchange

theorem after_wrote (bytes : Bytes) (out : Action × Connection × σ × List Effect) :
    after pending effects (out.1, out.2.1, out.2.2.1, .wrote bytes :: out.2.2.2) =
      after pending (effects ++ [.wrote bytes]) out := by
  unfold after
  dsimp only
  rw [List.append_cons]
  rfl

theorem after_nothing (s : Session σ) (action : Action) :
    after s.pending s.effects (action, s.conn, s.device, []) =
      { s with closed := action = .close } := by
  unfold after
  rw [List.append_nil]
  rfl

namespace Framed

/-- Writing some of a reply, to a frame or of the refusal. -/
theorem flush (h : Framed api inherited stream d₀ s) (hopened : s.closed = false)
    (hreply : s.conn.output ≠ {}) {write : Attempted Nat} {read : Attempted Bytes}
    (hoffered : s.Offered now write read) :
    Framed api inherited stream d₀
      (after s.pending s.effects (s.conn.flush api s.device now write read)) := by
  have hsame (action : Action) : Framed api inherited stream d₀
      (after s.pending s.effects (action, s.conn, s.device, [])) := by
    rw [after_nothing]
    cases h with
    | waiting _ _ houtput => exact absurd houtput.1 hreply
    | replying h hopen hwritten hrefused hended hfirst =>
      exact .replying h hopen hwritten hrefused hended hfirst
    | refusing h hfull hcut hwritten hclose hexpired hrefused hended hfirst =>
      exact .refusing h hfull hcut hwritten hclose hexpired hrefused hended hfirst
    | finished _ hclosed => exact absurd (hopened.symm.trans hclosed) Bool.false_ne_true
  unfold Connection.flush
  split
  · exact hsame _
  · exact hsame _
  · exact hsame _
  · next n _ =>
    have hn := hoffered.write n rfl
    obtain ⟨hrefusal, hend, hframes⟩ := Effect.still s.effects
      [.wrote ((s.conn.output.bytes.drop s.conn.written).take n)] rfl rfl rfl
    cases h with
    | waiting _ _ houtput => exact absurd houtput.1 hreply
    | replying h hopen hwritten hrefused hended hfirst =>
      rw [← hrefusal] at hrefused
      rw [← hend] at hended
      rw [← hframes] at hfirst
      have hwrote := h.wrote n
      have hopen' : Open inherited { s.conn with written := s.conn.written + n } :=
        ⟨⟨hopen.scanned.none, hopen.scanned.le⟩, hopen.room, hopen.close, hopen.expired⟩
      dsimp only
      split
      · next hmore =>
        refine .replying hwrote hopen' ?_ hrefused hended hfirst
        change s.conn.written + n < s.conn.output.bytes.length
        omega
      · next hall =>
        rw [Decidable.not_not.mp hall, List.drop_length] at hwrote
        cases inherited with
        | false =>
          have hclose : s.conn.closeAfterWrite = true := hopen.close
          rw [if_pos hclose]
          exact .finished hwrote rfl hended (.inl ⟨hrefused, rfl, hfirst rfl, hopen.room⟩)
        | true =>
          rw [if_neg (by rw [hopen.close]; exact Bool.false_ne_true), after_wrote]
          exact proceed_framed
            (c := { s.conn with output := {}, written := 0, writeDeadline := none }) hwrote
            ⟨⟨hopen.scanned.none, hopen.scanned.le⟩, hopen.room, hopen.close, hopen.expired⟩
            ⟨rfl, rfl⟩ hrefused hended nofun hoffered.read
    | refusing h hfull hcut hwritten hclose hexpired hrefused hended hfirst =>
      rw [← hrefusal] at hrefused
      rw [← hend] at hended
      rw [← hframes] at hfirst
      have hwrote := h.wrote n
      dsimp only
      split
      · next hmore =>
        refine .refusing hwrote hfull hcut ?_ hclose hexpired hrefused hended hfirst
        change s.conn.written + n < s.conn.output.bytes.length
        omega
      · next hall =>
        rw [Decidable.not_not.mp hall, List.drop_length] at hwrote
        exact .finished hwrote rfl hended (.inr ⟨hrefused, hfull, hcut, hfirst⟩)
    | finished _ hclosed => exact absurd (hopened.symm.trans hclosed) Bool.false_ne_true

/-- Every dispatch leaves the session where it can stand. -/
theorem dispatch (h : Framed api inherited stream d₀ s) (hstep : Dispatch api s s') :
    Framed api inherited stream d₀ s' := by
  obtain ⟨hopened, now, write, read, hoffered, rfl⟩ := hstep
  have hexpired : s.conn.expired = false := by
    cases h with
    | waiting _ hopen | replying _ hopen => exact hopen.expired
    | refusing _ _ _ _ _ hexpired => exact hexpired
    | finished _ hclosed => exact absurd (hopened.symm.trans hclosed) Bool.false_ne_true
  rw [next_eq]
  unfold Connection.step
  rw [if_neg (by rw [hexpired, hoffered.inTime]; exact Bool.false_ne_true)]
  split
  · next hsome => exact h.flush hopened (by rintro hnone; simp [hnone] at hsome) hoffered
  · next hnone =>
    cases h with
    | waiting h hopen houtput hcut hrefused hended hfirst =>
      have hstill : Effect.isEnded s.effects = false := by
        rw [← Bool.not_eq_true]
        intro hyes
        exact absurd (hopened.symm.trans (hended hyes).1) Bool.false_ne_true
      exact proceed_framed h hopen houtput hrefused hstill hfirst hoffered.read
    | replying _ _ hwritten | refusing _ _ _ hwritten =>
      have hempty : s.conn.output.bytes = [] := by simpa using hnone
      rw [hempty] at hwritten
      cases hwritten
    | finished _ hclosed => exact absurd (hopened.symm.trans hclosed) Bool.false_ne_true

end Framed

theorem connect_framed (inherited : Bool) (stream : Bytes) (d : σ) (now : Nat) :
    Framed api inherited stream d (connect inherited stream d now) := by
  refine .waiting ⟨.start, rfl, .nil _, rfl⟩ ⟨⟨rfl, Nat.zero_le _⟩, Nat.two_pow_pos 20, rfl, rfl⟩
    ⟨rfl, rfl⟩ rfl rfl nofun fun _ => rfl

/-- Every run of dispatches. -/
theorem run_framed (h : Relation.ReflTransGen (Dispatch api) (connect inherited stream d₀ now) s) :
    Framed api inherited stream d₀ s := by
  induction h with
  | refl => exact connect_framed inherited stream d₀ now
  | tail _ hlast ih => exact ih.dispatch hlast

/-- However the stream is split into reads and the replies into writes, the frames executed are the
stream cut after each blank line, one after the other. -/
theorem uapi_framing (api : Api σ) (inherited : Bool) (stream : Bytes) (d : σ) (now : Nat)
    (s : Session σ)
    (hrun : Relation.ReflTransGen (Dispatch api) (connect inherited stream d now) s) :
    ∃ rest owed : Bytes, Exchange s.effects owed ∧
      Effect.taken s.effects ++ s.pending = stream ∧
      Cuts isBlankLine (Effect.taken s.effects) (Effect.frames s.effects) rest ∧
      s.device = (Effect.frames s.effects).foldl api.execute d ∧
      (Effect.isRefused s.effects = true ↔
        rest.length = MAX_REQUEST ∧ cut isBlankLine rest = none) ∧
      (Effect.isRefused s.effects = true → owed = [] → s.closed = true) ∧
      (inherited = true → owed = [] → cut isBlankLine rest = none) ∧
      (Effect.isEnded s.effects = true → s.pending = [] ∧ cut isBlankLine rest = none) ∧
      (inherited = false → (Effect.frames s.effects).length ≤ 1) := by
  have howed {reply : Bytes} {written : Nat} (h : written < reply.length) :
      reply.drop written ≠ [] := by
    intro hnil
    exact absurd (List.drop_eq_nil_iff.mp hnil) (Nat.not_le.mpr h)
  cases run_framed hrun with
  | waiting h hopen houtput hcut hrefused hended hfirst =>
    refine ⟨_, _, h.exchange, h.arrived, h.cuts, h.device, ?_, ?_, fun _ _ => hcut, ?_, ?_⟩
    · rw [hrefused]
      exact ⟨nofun, fun hfull => absurd hfull.1 (Nat.ne_of_lt hopen.room)⟩
    · exact fun hyes => absurd (hrefused.symm.trans hyes) Bool.false_ne_true
    · exact fun hyes => ⟨(hended hyes).2, hcut⟩
    · intro hordinary
      rw [hfirst hordinary]
      exact Nat.zero_le _
  | replying h hopen hwritten hrefused hended hfirst =>
    refine ⟨_, _, h.exchange, h.arrived, h.cuts, h.device, ?_, ?_, ?_, ?_, ?_⟩
    · rw [hrefused]
      exact ⟨nofun, fun hfull => absurd hfull.1 (Nat.ne_of_lt hopen.room)⟩
    · exact fun _ hnil => absurd hnil (howed hwritten)
    · exact fun _ hnil => absurd hnil (howed hwritten)
    · exact fun hyes => absurd (hended.symm.trans hyes) Bool.false_ne_true
    · exact fun hordinary => Nat.le_of_eq (hfirst hordinary)
  | refusing h hfull hcut hwritten _ _ hrefused hended hfirst =>
    refine ⟨_, _, h.exchange, h.arrived, h.cuts, h.device, ?_, ?_, fun _ _ => hcut, ?_, ?_⟩
    · exact ⟨fun _ => ⟨hfull, hcut⟩, fun _ => hrefused⟩
    · exact fun _ hnil => absurd hnil (howed hwritten)
    · exact fun hyes => absurd (hended.symm.trans hyes) Bool.false_ne_true
    · intro hordinary
      rw [hfirst hordinary]
      exact Nat.zero_le _
  | finished h hclosed hended hlast =>
    rcases hlast with ⟨hrefused, hordinary, hone, hroom⟩ | ⟨hrefused, hfull, hcut, hfirst⟩
    · refine ⟨_, _, h.exchange, h.arrived, h.cuts, h.device, ?_, fun _ _ => hclosed, ?_, ?_, ?_⟩
      · rw [hrefused]
        exact ⟨nofun, fun hfull => absurd hfull.1 (Nat.ne_of_lt hroom)⟩
      · exact fun hinherited => absurd (hordinary.symm.trans hinherited) Bool.false_ne_true
      · exact fun hyes => absurd (hended.symm.trans hyes) Bool.false_ne_true
      · exact fun _ => Nat.le_of_eq hone
    · refine ⟨_, _, h.exchange, h.arrived, h.cuts, h.device, ?_, fun _ _ => hclosed,
        fun _ _ => hcut, ?_, ?_⟩
      · exact ⟨fun _ => ⟨hfull, hcut⟩, fun _ => hrefused⟩
      · exact fun hyes => absurd (hended.symm.trans hyes) Bool.false_ne_true
      · intro hordinary
        rw [hfirst hordinary]
        exact Nat.zero_le _

/-- A device that has nothing to tell. -/
def idleApi : Api Unit where
  get _ := ([], 0)
  set _ d := (EIO_CODE, d)

/-- It is asked twice over one connection. The second request is split by the first read, and the
first reply by the writes. -/
def askedOnce : Session Unit :=
  (connect true (ascii "get=1\n\nget=1\n\nget=") () 0).next idleApi 1 .again
    (.ok (ascii "get=1\n\nget"))

def askedTwice : Session Unit :=
  (askedOnce.next idleApi 2 (.ok 3) .again).next idleApi 3 (.ok 6) (.ok (ascii "=1\n\nget="))

theorem uapi_framing_askedTwice : askedTwice.closed = false ∧ ∃ rest,
    Cuts isBlankLine (Effect.taken askedTwice.effects) [ascii "get=1\n\n", ascii "get=1\n\n"] rest := by
  have hfirst : Dispatch idleApi (connect true (ascii "get=1\n\nget=1\n\nget=") () 0) askedOnce := by
    refine ⟨rfl, 1, .again, .ok (ascii "get=1\n\nget"), ⟨by decide, nofun, ?_⟩, rfl⟩
    rintro _ ⟨⟩
    decide
  have hpart : Dispatch idleApi askedOnce (askedOnce.next idleApi 2 (.ok 3) .again) := by
    refine ⟨by decide, 2, .ok 3, .again, ⟨by decide, ?_, nofun⟩, rfl⟩
    rintro _ ⟨⟩
    decide
  have hrest : Dispatch idleApi (askedOnce.next idleApi 2 (.ok 3) .again) askedTwice := by
    refine ⟨by decide, 3, .ok 6, .ok (ascii "=1\n\nget="), ⟨by decide, ?_, ?_⟩, rfl⟩
    · rintro _ ⟨⟩
      decide
    · rintro _ ⟨⟩
      decide
  have hframes : Effect.frames askedTwice.effects = [ascii "get=1\n\n", ascii "get=1\n\n"] := by
    decide
  obtain ⟨rest, owed, -, -, hcuts, -⟩ := uapi_framing idleApi true _ () 0 askedTwice
    (((Relation.ReflTransGen.single hfirst).tail hpart).tail hrest)
  rw [hframes] at hcuts
  exact ⟨by decide, rest, hcuts⟩

end Session

end BoringTun.Uapi

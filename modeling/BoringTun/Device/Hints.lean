import BoringTun.Crypto
import BoringTun.Device.ReplyPolicy
import Mathlib.Data.List.Nodup

/-!
Evidence for auto-imitation kept by a device (`device/imitation_auto.rs`): one hint for each
of the last sources that sent something recognizable, until it expires.

`Pending` is a map and the queue of its keys in the order they came. That the two agree is
part of the type, so the lookup of the oldest source cannot miss.
-/

namespace BoringTun

def MAX_HINTS : Nat := 1024

structure Pending where
  bySource : SocketAddr → Option Hint
  order : List SocketAddr
  nodup : order.Nodup
  keys : ∀ source, source ∈ order ↔ (bySource source).isSome

namespace Pending

/-- `Pending::default()`. -/
def empty : Pending where
  bySource _ := none
  order := []
  nodup := .nil
  keys := by simp

def popOldest (pending : Pending) : Pending :=
  match horder : pending.order with
  | [] => pending
  | oldest :: rest =>
    { bySource := Function.update pending.bySource oldest none
      order := rest
      nodup := (List.nodup_cons.mp (horder ▸ pending.nodup)).2
      keys := by
        intro source
        obtain ⟨hfresh, -⟩ := List.nodup_cons.mp (horder ▸ pending.nodup)
        have hkeys := pending.keys source
        rw [horder, List.mem_cons] at hkeys
        by_cases heq : source = oldest
        · simp [heq, hfresh]
        · simpa [heq] using hkeys }

/-- Drop the oldest sources while their hints are not live, at most `n` of them; the clock is
read for each hint looked at. -/
def expireUpTo {P : Primitives} : Nat → Pending → Env P → Pending × Env P
  | 0, pending, env => (pending, env)
  | n + 1, pending, env =>
    match horder : pending.order with
    | [] => (pending, env)
    | oldest :: _ =>
      let hint := (pending.bySource oldest).get ((pending.keys oldest).mp (by simp [horder]))
      if hint.isLive env.now then (pending, env.tick) else expireUpTo n pending.popOldest env.tick

variable {P : Primitives} (pending : Pending) (env : Env P)

def expire : Pending × Env P := pending.expireUpTo pending.order.length env

def insert (source : SocketAddr) (hint : Hint) (hfresh : pending.bySource source = none) :
    Pending where
  bySource := Function.update pending.bySource source (some hint)
  order := pending.order ++ [source]
  nodup := by
    have hnew : source ∉ pending.order := by simp [pending.keys, hfresh]
    rw [← List.concat_eq_append]
    exact List.Nodup.concat hnew pending.nodup
  keys other := by
    by_cases heq : other = source
    · simp [heq]
    · simp [heq, pending.keys]

theorem popOldest_bySource {source : SocketAddr} (h : pending.bySource source = none) :
    pending.popOldest.bySource source = none := by
  unfold popOldest
  split
  · exact h
  · next oldest _ _ =>
    by_cases heq : source = oldest
    · simp [heq]
    · simp [heq, h]

/-- Record what a datagram from `source` looks like, unless a hint of that source is kept. -/
def observe (source : SocketAddr) (datagram : Bytes) : Pending × Env P :=
  match Imitation.detect datagram with
  | none => (pending, env)
  | some probe =>
    -- `Hint::detect` stamps a hint of its own, which is not the one kept
    let (pending, env) := pending.expire env.tick
    match hfresh : pending.bySource source with
    | some _ => (pending, env)
    | none =>
      let hint : Hint := ⟨probe.protocol, env.now⟩
      if pending.order.length = MAX_HINTS then
        (pending.popOldest.insert source hint (pending.popOldest_bySource hfresh), env.tick)
      else (pending.insert source hint hfresh, env.tick)

def get (source : SocketAddr) : Option AmneziaImitationProtocol × Pending × Env P :=
  let (pending, env) := pending.expire env
  ((pending.bySource source).map Hint.protocol, pending, env)

def discard (source : SocketAddr) : Pending where
  bySource := Function.update pending.bySource source none
  order := pending.order.filter (· ≠ source)
  nodup := pending.nodup.filter _
  keys other := by
    by_cases heq : other = source
    · simp [heq]
    · simp [heq, pending.keys]

/-- The configuration a cookie reply to `source` is framed in. -/
def cookieConfig (amnezia : AmneziaConfig) (source : SocketAddr) (datagram : Bytes) :
    AmneziaConfig × Pending × Env P :=
  if amnezia.imitation.protocol ≠ .auto then (amnezia, pending, env)
  else
    let (hint, pending, env) := pending.get env source
    match hint with
    | some protocol => (amnezia.resolveImitation protocol, pending, env)
    | none =>
      match Imitation.detect datagram with
      | some probe => (amnezia.resolveImitation probe.protocol, pending, env.tick)
      | none => (amnezia.resolveImitation .none, pending, env)

/-- Whatever it imitates, a cookie reply has the prefix the device is configured for. -/
theorem cookieConfig_outboundJunkSize (amnezia : AmneziaConfig) (source : SocketAddr)
    (datagram : Bytes) (kind : PacketKind) :
    (pending.cookieConfig env amnezia source datagram).1.outboundJunkSize kind =
      amnezia.outboundJunkSize kind := by
  unfold cookieConfig
  split
  · rfl
  · dsimp only
    split
    · exact amnezia.resolveImitation_outboundJunkSize _ _
    · split
      · exact amnezia.resolveImitation_outboundJunkSize _ _
      · exact amnezia.resolveImitation_outboundJunkSize _ _

end Pending

end BoringTun

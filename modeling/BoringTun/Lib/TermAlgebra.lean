import Mathlib.Order.Basic
import Mathlib.Tactic.Common

/-!
A free algebra of cryptographic terms.

Private keys are numbers, everything computed from them is a term, and two terms
are equal only if they were built alike, except that a Diffie-Hellman secret does
not record which side computed it. Every symbol is injective and a sealed term
opens exactly under what it was sealed with, by construction.
-/

namespace BoringTun

inductive Term where
  | raw (bytes : List UInt8)
  | publicOf (secret : Nat)
  /-- The secret shared by two private keys, the smaller first. -/
  | shared (lo hi : Nat)
  /-- A private key applied to something that is no public key. -/
  | sharedRaw (secret : Nat) (point : Term)
  | hash (a b : Term)
  | mac (key data : Term)
  | mac2 (key a b : Term)
  | sealed (key : Term) (nonce : Nat) (message aad : Term)
  | stamp (secs nano : Nat)
  deriving DecidableEq

namespace Term

def diffieHellman (secret : Nat) : Term → Term
  | publicOf other => shared (min secret other) (max secret other)
  | point => sharedRaw secret point

def openSealed (key : Term) (nonce : Nat) (ciphertext aad : Term) : Option Term :=
  match ciphertext with
  | sealed key' nonce' message aad' =>
    if key = key' ∧ nonce = nonce' ∧ aad = aad' then some message else none
  | _ => none

def readStamp : Term → Nat × Nat
  | stamp secs nano => (secs, nano)
  | _ => (0, 0)

theorem diffieHellman_comm (a b : Nat) :
    diffieHellman a (publicOf b) = diffieHellman b (publicOf a) := by
  simp only [diffieHellman, shared.injEq]
  exact ⟨Nat.min_comm a b, Nat.max_comm a b⟩

theorem diffieHellman_inj {a : Nat} {x y : Term} (h : diffieHellman a x = diffieHellman a y) :
    x = y := by
  cases x <;> cases y <;> simp_all [diffieHellman]
  omega

theorem openSealed_sealed (key : Term) (nonce : Nat) (message aad : Term) :
    openSealed key nonce (sealed key nonce message aad) aad = some message := by
  simp [openSealed]

theorem openSealed_only {key key' : Term} {nonce nonce' : Nat} {message message' aad aad' : Term}
    (h : openSealed key nonce (sealed key' nonce' message' aad') aad = some message) :
    key = key' ∧ nonce = nonce' ∧ aad = aad' := by
  simp only [openSealed] at h
  split at h
  · assumption
  · cases h

end Term

end BoringTun

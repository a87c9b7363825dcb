import BoringTun.Amnezia.Config

/-!
Header protection (`noise/header_protection.rs`): the message of a datagram is masked
with the ChaCha20 keystream of the shared key, nonced by the first 12 bytes of the
datagram's prefix.

The keystream starts at the message, whatever the prefix before it, so four bytes of it
classify a datagram whose padding is not yet known.
-/

namespace BoringTun.HeaderProtectionKey

variable (P : Primitives) (k : HeaderProtectionKey)

/-- The keystream of a datagram. -/
def cipher (datagram : Bytes) : Nat → UInt8 := P.keystream k.key (datagram.take NONCE_SIZE)

/-- Mask `len` bytes at `offset`; `none` is the refusal for want of a nonce. -/
def maskOutbound (datagram : Bytes) (offset len : Nat) : Option Bytes :=
  if !k.isSet then some datagram
  else if offset < NONCE_SIZE ∨ datagram.length < offset + len then none
  else some (overwrite datagram offset
    (xorStream (k.cipher P datagram) (slice datagram offset (offset + len))))

/-- The four keystream bytes that unmask a message type. -/
def typeMask (datagram : Bytes) : Option Bytes :=
  if !k.isSet ∨ datagram.length < NONCE_SIZE then none
  else some (xorStream (k.cipher P datagram) (List.replicate TYPE_MASK_SIZE 0))

/-- Unmask the first `len` bytes of a copy of one message. -/
def unmaskDetached (datagram message : Bytes) (len : Nat) : Option Bytes :=
  if !k.isSet then some message
  else if datagram.length < NONCE_SIZE ∨ message.length < len ∨ len < TYPE_MASK_SIZE then none
  else some (overwrite message 0 (xorStream (k.cipher P datagram) (message.take len)))

/-- A message as it travels behind `pfx`, masked in its first `len` bytes. -/
def masked (pfx message : Bytes) (len : Nat) : Bytes :=
  if k.isSet then maskFirst (k.cipher P pfx) len message else message

@[simp] theorem length_masked (pfx message : Bytes) (len : Nat) :
    (k.masked P pfx message len).length = message.length := by
  unfold masked
  split
  · exact length_maskFirst _ _ _
  · rfl

variable {P k} {pfx message rest : Bytes} {len : Nat}

/-- Bytes behind the nonce do not change the keystream. -/
theorem cipher_append (hnonce : NONCE_SIZE ≤ pfx.length) (tail : Bytes) :
    k.cipher P (pfx ++ tail) = k.cipher P pfx := by
  rw [cipher, List.take_append_of_le_length hnonce, cipher]

theorem maskOutbound_eq_some {out : Bytes}
    (hmask : k.maskOutbound P (pfx ++ message) pfx.length len = some out) :
    out = pfx ++ k.masked P pfx message len ∧
      (k.isSet = true → NONCE_SIZE ≤ pfx.length) := by
  unfold maskOutbound at hmask
  unfold masked
  cases hset : k.isSet with
  | false =>
    simp only [hset, Bool.not_false, ↓reduceIte, Option.some.injEq] at hmask
    simp [hmask.symm]
  | true =>
    simp only [hset, Bool.not_true, Bool.false_eq_true, ↓reduceIte] at hmask
    split at hmask
    · cases hmask
    · next hroom =>
      obtain ⟨hnonce, -⟩ := not_or.mp hroom
      have hnonce : NONCE_SIZE ≤ pfx.length := Nat.not_lt.mp hnonce
      rw [cipher_append hnonce, slice_append_right _ _ rfl, Nat.add_sub_cancel_left] at hmask
      cases hmask
      refine ⟨?_, fun _ => hnonce⟩
      have hsplit : pfx ++ message = pfx ++ message.take len ++ message.drop len := by
        rw [List.append_assoc, List.take_append_drop]
      rw [hsplit, overwrite_append (length_xorStream _ _).symm, if_pos rfl, maskFirst,
        List.append_assoc]

/-- Masking succeeds whenever there is a prefix for the nonce. -/
theorem maskOutbound_isSome (hlen : len ≤ message.length)
    (hnonce : k.isSet = true → NONCE_SIZE ≤ pfx.length) :
    (k.maskOutbound P (pfx ++ message) pfx.length len).isSome := by
  unfold maskOutbound
  split
  · rfl
  · next hset =>
    rw [if_neg]
    · rfl
    · simp only [Bool.not_eq_true', Bool.not_eq_false] at hset
      have := hnonce hset
      rw [List.length_append]
      omega

/-- The type mask is the head of the keystream. -/
theorem typeMask_append (hset : k.isSet = true) (hnonce : NONCE_SIZE ≤ pfx.length)
    (tail : Bytes) : k.typeMask P (pfx ++ tail) =
      some (xorStream (k.cipher P pfx) (List.replicate TYPE_MASK_SIZE 0)) := by
  unfold typeMask
  rw [if_neg, cipher_append hnonce]
  simp only [hset, Bool.not_true, Bool.false_eq_true, false_or, List.length_append]
  omega

theorem take_masked (hset : k.isSet = true) (hlen : TYPE_MASK_SIZE ≤ len)
    (hmsg : len ≤ message.length) :
    (k.masked P pfx message len).take TYPE_MASK_SIZE =
      xorStream (k.cipher P pfx) (message.take TYPE_MASK_SIZE) := by
  rw [masked, if_pos hset, take_maskFirst _ hlen hmsg]

/-- The tag of a masked message reads as the tag of the message. -/
theorem typeMask_unmasks (hset : k.isSet = true) (hnonce : NONCE_SIZE ≤ pfx.length)
    (hlen : TYPE_MASK_SIZE ≤ len) (hmsg : len ≤ message.length) :
    ∃ mask, k.typeMask P (pfx ++ k.masked P pfx message len ++ rest) = some mask ∧
      List.zipWith (· ^^^ ·) ((k.masked P pfx message len).take TYPE_MASK_SIZE) mask =
        message.take TYPE_MASK_SIZE := by
  have hfour : (message.take TYPE_MASK_SIZE).length = TYPE_MASK_SIZE := by
    rw [List.length_take]
    omega
  refine ⟨_, List.append_assoc .. ▸ typeMask_append hset hnonce _, ?_⟩
  rw [take_masked hset hlen hmsg]
  nth_rewrite 2 [← hfour]
  exact zipWith_xorStream _ _

/-- Unmasking a copy of a message is masking it again. -/
theorem unmaskDetached_eq {datagram : Bytes} (hset : k.isSet = true)
    (hnonce : NONCE_SIZE ≤ datagram.length) (hlen : TYPE_MASK_SIZE ≤ len)
    (hmsg : len ≤ message.length) :
    k.unmaskDetached P datagram message len = some (maskFirst (k.cipher P datagram) len message) := by
  have hrefused : ¬ (datagram.length < NONCE_SIZE ∨ message.length < len ∨ len < TYPE_MASK_SIZE) := by
    rintro (hshort | hshort | hshort)
    · exact Nat.not_lt.mpr hnonce hshort
    · exact Nat.not_lt.mpr hmsg hshort
    · exact Nat.not_lt.mpr hlen hshort
  unfold unmaskDetached
  rw [if_neg (by simp [hset]), if_neg hrefused, overwrite, maskFirst, List.take_zero,
    List.nil_append, length_xorStream, List.length_take, Nat.min_eq_left hmsg, Nat.zero_add]

/-- The tag a type mask reads is the tag of the unmasked message. -/
theorem zipWith_typeMask {datagram mask : Bytes} (hmask : k.typeMask P datagram = some mask)
    (hlen : TYPE_MASK_SIZE ≤ len) (hmsg : len ≤ message.length) :
    List.zipWith (· ^^^ ·) (message.take TYPE_MASK_SIZE) mask =
      (maskFirst (k.cipher P datagram) len message).take TYPE_MASK_SIZE := by
  unfold typeMask at hmask
  split at hmask
  · cases hmask
  · cases hmask
    have hfour : (xorStream (k.cipher P datagram) (message.take TYPE_MASK_SIZE)).length =
        TYPE_MASK_SIZE := by
      rw [length_xorStream, List.length_take]
      exact Nat.min_eq_left (Nat.le_trans hlen hmsg)
    have hread := zipWith_xorStream (k.cipher P datagram)
      (xorStream (k.cipher P datagram) (message.take TYPE_MASK_SIZE))
    rw [xorStream_xorStream, hfour] at hread
    rw [take_maskFirst _ hlen hmsg, hread]

/-- Unmasking a copy of a masked message gives the message. -/
theorem unmaskDetached_masked (hset : k.isSet = true) (hnonce : NONCE_SIZE ≤ pfx.length)
    (hlen : TYPE_MASK_SIZE ≤ len) (hmsg : len ≤ message.length) :
    k.unmaskDetached P (pfx ++ k.masked P pfx message len ++ rest)
      (k.masked P pfx message len) len = some message := by
  have hlong : NONCE_SIZE ≤ (pfx ++ k.masked P pfx message len ++ rest).length := by
    simp only [List.length_append]
    omega
  rw [unmaskDetached_eq hset hlong hlen (by rwa [length_masked]), List.append_assoc,
    cipher_append hnonce, masked, if_pos hset, maskFirst_maskFirst _ hmsg]

end BoringTun.HeaderProtectionKey

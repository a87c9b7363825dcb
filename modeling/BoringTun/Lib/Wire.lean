import BoringTun.Lib.Bytes

/-!
Reading fields off the wire: integers and slices of what stands at an offset.
-/

namespace BoringTun

theorem beBytes_beNat (bs : Bytes) : beBytes bs.length (beNat bs) = bs := by
  have hbytes := leBytes_leNat bs.reverse
  rw [List.length_reverse] at hbytes
  rw [beBytes, beNat, hbytes, List.reverse_reverse]

theorem beNat_lt (bs : Bytes) : beNat bs < 256 ^ bs.length := by
  have hlt := leNat_lt bs.reverse
  rwa [List.length_reverse] at hlt

/-- A slice behind an offset is one of what stands there. -/
theorem slice_drop (bs : Bytes) (off lo hi : Nat) :
    slice bs (off + lo) (off + hi) = slice (bs.drop off) lo hi := by
  rw [slice, slice, List.drop_drop, Nat.add_sub_add_left]

theorem slice_append_slice (bs : Bytes) {lo mid hi : Nat} (hlo : lo ≤ mid) (hhi : mid ≤ hi) :
    slice bs lo mid ++ slice bs mid hi = slice bs lo hi := by
  have hdrop : bs.drop mid = (bs.drop lo).drop (mid - lo) := by
    rw [List.drop_drop, Nat.add_sub_cancel' hlo]
  rw [slice, slice, slice, hdrop, ← List.take_add]
  congr 1
  omega

theorem drop_of_drop {bs front back : Bytes} {off : Nat} (h : bs.drop off = front ++ back) :
    bs.drop (off + front.length) = back := by
  rw [← List.drop_drop, h, List.drop_left]

end BoringTun

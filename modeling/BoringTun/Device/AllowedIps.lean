import BoringTun.Imitation.Auto
import BoringTun.Lib.Assoc

/-!
Which prefix routes to whom (`device/allowed_ips.rs`, and `index_owns` and `index_prefixes` in
`device/mod.rs`). The third-party table is a finite map from prefixes without host bits to
their owners, with the lookup of the longest prefix that contains an address.

* `AllowedIps.find_eq_some`: the lookup;
* `AllowedIps.lookup_reinsert`: taking all entries of an owner out and putting them back,
  with others, gives it the others and touches nothing else.
-/

namespace BoringTun

namespace IpAddr

/-- The bits of an address. -/
def width : IpAddr → Nat
  | v4 _ => 32
  | v6 _ => 128

/-- Clear the bits after the first `cidr`. -/
def truncate : IpAddr → Nat → IpAddr
  | v4 addr, cidr => v4 (UInt32.ofNat (addr.toNat / 2 ^ (32 - cidr) * 2 ^ (32 - cidr)))
  | v6 addr, cidr => v6 (BitVec.ofNat 128 (addr.toNat / 2 ^ (128 - cidr) * 2 ^ (128 - cidr)))

theorem width_truncate (addr : IpAddr) (cidr : Nat) : (addr.truncate cidr).width = addr.width := by
  cases addr with
  | v4 => rfl
  | v6 => rfl

theorem truncate_truncate (addr : IpAddr) (cidr : Nat) :
    (addr.truncate cidr).truncate cidr = addr.truncate cidr := by
  cases addr with
  | v4 addr =>
    have hlt : addr.toNat / 2 ^ (32 - cidr) * 2 ^ (32 - cidr) < UInt32.size :=
      lt_of_le_of_lt (Nat.div_mul_le_self _ _) addr.toNat_lt
    rw [truncate, truncate, UInt32.toNat_ofNat_of_lt' hlt,
      Nat.mul_div_cancel _ (Nat.two_pow_pos _)]
  | v6 addr =>
    have hlt : addr.toNat / 2 ^ (128 - cidr) * 2 ^ (128 - cidr) < 2 ^ 128 :=
      lt_of_le_of_lt (Nat.div_mul_le_self _ _) addr.isLt
    rw [truncate, truncate, BitVec.toNat_ofNat, Nat.mod_eq_of_lt hlt,
      Nat.mul_div_cancel _ (Nat.two_pow_pos _)]

end IpAddr

/-- A prefix as it is configured: parsing one checks its length. -/
structure AllowedIP where
  addr : IpAddr
  cidr : Nat
  valid : cidr ≤ addr.width
  deriving DecidableEq

/-- A prefix without host bits. -/
structure IpNetwork where
  networkAddress : IpAddr
  netmask : Nat
  valid : netmask ≤ networkAddress.width
  truncated : networkAddress.truncate netmask = networkAddress
  deriving DecidableEq

namespace IpNetwork

def newTruncate (ip : AllowedIP) : IpNetwork where
  networkAddress := ip.addr.truncate ip.cidr
  netmask := ip.cidr
  valid := by rw [IpAddr.width_truncate]; exact ip.valid
  truncated := ip.addr.truncate_truncate ip.cidr

def toAllowedIP (network : IpNetwork) : AllowedIP :=
  ⟨network.networkAddress, network.netmask, network.valid⟩

@[simp] theorem newTruncate_toAllowedIP (network : IpNetwork) :
    newTruncate network.toAllowedIP = network := by
  obtain ⟨addr, netmask, valid, truncated⟩ := network
  simp [newTruncate, toAllowedIP, truncated]

def contains (network : IpNetwork) (addr : IpAddr) : Prop :=
  addr.truncate network.netmask = network.networkAddress

/-- The prefix of an address. -/
def around (addr : IpAddr) (cidr : Nat) : IpNetwork :=
  newTruncate ⟨addr, min cidr addr.width, Nat.min_le_right _ _⟩

theorem contains_iff {network : IpNetwork} {addr : IpAddr} :
    network.contains addr ↔ network.netmask ≤ addr.width ∧ around addr network.netmask = network := by
  obtain ⟨networkAddress, netmask, valid, truncated⟩ := network
  constructor
  · intro hcontains
    have hwidth : netmask ≤ addr.width := by
      rw [← addr.width_truncate netmask]
      exact (congrArg IpAddr.width hcontains) ▸ valid
    refine ⟨hwidth, ?_⟩
    simp only [around, newTruncate, Nat.min_eq_left hwidth, IpNetwork.mk.injEq, and_true]
    exact hcontains
  · rintro ⟨hwidth, haround⟩
    have haddr := congrArg IpNetwork.networkAddress haround
    simp only [around, newTruncate, Nat.min_eq_left hwidth] at haddr
    exact haddr

theorem around_contains {addr : IpAddr} {cidr : Nat} (h : cidr ≤ addr.width) :
    (around addr cidr).contains addr ∧ (around addr cidr).netmask = cidr := by
  have hnetmask : (around addr cidr).netmask = cidr := Nat.min_eq_left h
  exact ⟨contains_iff.mpr ⟨by rw [hnetmask]; exact h, by rw [hnetmask]⟩, hnetmask⟩

end IpNetwork

abbrev AllowedIps (D : Type*) := Assoc.Map IpNetwork D

namespace AllowedIps

variable {D : Type*}

def insert (table : AllowedIps D) (ip : AllowedIP) (data : D) : AllowedIps D :=
  AList.insert (IpNetwork.newTruncate ip) data table

/-- The owner of the longest prefix of `addr` of at most `cidr` bits. -/
def longestMatch (table : AllowedIps D) (addr : IpAddr) : Nat → Option D
  | 0 => AList.lookup (.around addr 0) table
  | cidr + 1 => AList.lookup (.around addr (cidr + 1)) table <|> longestMatch table addr cidr

def find (table : AllowedIps D) (addr : IpAddr) : Option D :=
  longestMatch table addr addr.width

def remove (table : AllowedIps D) (predicate : D → Bool) : AllowedIps D :=
  Assoc.retain (fun _ data => !predicate data) table

/-- Does `addr` route to `owner`? -/
def indexOwns [DecidableEq D] (index : AllowedIps D) (owner : D) (addr : IpAddr) : Bool :=
  (find index addr).any fun found => found = owner

/-- Every prefix that routes to `owner`. -/
def indexPrefixes [DecidableEq D] (index : AllowedIps D) (owner : D) : List AllowedIP :=
  (Assoc.keysOf index owner).map IpNetwork.toAllowedIP

def insertAll (table : AllowedIps D) (ips : List AllowedIP) (data : D) : AllowedIps D :=
  ips.foldl (fun table ip => insert table ip data) table

/-! ### Looking up -/

theorem longestMatch_eq_some {table : AllowedIps D} {addr : IpAddr} {data : D} (cidr : Nat) :
    longestMatch table addr cidr = some data ↔ ∃ c ≤ cidr,
      AList.lookup (.around addr c) table = some data ∧
      ∀ c', c < c' → c' ≤ cidr → AList.lookup (.around addr c') table = none := by
  induction cidr with
  | zero =>
    constructor
    · intro hfound
      exact ⟨0, le_rfl, hfound, fun c' hlt hle => by omega⟩
    · rintro ⟨c, hc, hfound, -⟩
      rwa [Nat.le_zero.mp hc] at hfound
  | succ cidr ih =>
    rw [longestMatch]
    cases hlookup : AList.lookup (IpNetwork.around addr (cidr + 1)) table with
    | some owner =>
      constructor
      · rintro hsome
        cases hsome
        exact ⟨cidr + 1, le_rfl, hlookup, fun c' hlt hle => by omega⟩
      · rintro ⟨c, hc, hfound, hlonger⟩
        rcases Nat.lt_or_eq_of_le hc with hlt | rfl
        · exact absurd ((hlonger (cidr + 1) hlt le_rfl).symm.trans hlookup) nofun
        · exact hlookup.symm.trans hfound
    | none =>
      rw [show (none <|> longestMatch table addr cidr) = longestMatch table addr cidr from rfl, ih]
      constructor
      · rintro ⟨c, hc, hfound, hlonger⟩
        refine ⟨c, by omega, hfound, fun c' hlt hle => ?_⟩
        rcases Nat.lt_or_eq_of_le hle with hle | rfl
        · exact hlonger c' hlt (by omega)
        · exact hlookup
      · rintro ⟨c, hc, hfound, hlonger⟩
        rcases Nat.lt_or_eq_of_le hc with hlt | rfl
        · exact ⟨c, by omega, hfound, fun c' hlt' hle => hlonger c' hlt' (by omega)⟩
        · exact absurd (hlookup.symm.trans hfound) nofun

/-- The owner found is that of the longest prefix that contains the address. -/
theorem find_eq_some {table : AllowedIps D} {addr : IpAddr} {data : D} :
    find table addr = some data ↔ ∃ network : IpNetwork, network.contains addr ∧
      AList.lookup network table = some data ∧
      ∀ other : IpNetwork, other.contains addr → network.netmask < other.netmask →
        AList.lookup other table = none := by
  rw [find, longestMatch_eq_some]
  constructor
  · rintro ⟨c, hc, hfound, hlonger⟩
    obtain ⟨hcontains, hnetmask⟩ := IpNetwork.around_contains hc
    refine ⟨.around addr c, hcontains, hfound, fun other hother hlt => ?_⟩
    obtain ⟨hwidth, haround⟩ := IpNetwork.contains_iff.mp hother
    rw [← haround]
    exact hlonger _ (by omega) hwidth
  · rintro ⟨network, hcontains, hfound, hlonger⟩
    obtain ⟨hwidth, haround⟩ := IpNetwork.contains_iff.mp hcontains
    refine ⟨network.netmask, hwidth, by rw [haround]; exact hfound, fun c' hlt hle => ?_⟩
    obtain ⟨hcontains', hnetmask⟩ := IpNetwork.around_contains hle
    exact hlonger _ hcontains' (by omega)

theorem insertAll_eq (table : AllowedIps D) (ips : List AllowedIP) (data : D) :
    insertAll table ips data = Assoc.giveAll table (ips.map IpNetwork.newTruncate) data := by
  rw [insertAll, Assoc.giveAll, List.foldl_map]
  rfl

/-! ### An owner's entries -/

variable [DecidableEq D]

theorem indexOwns_iff {index : AllowedIps D} {owner : D} {addr : IpAddr} :
    indexOwns index owner addr = true ↔ find index addr = some owner := by
  unfold indexOwns
  cases find index addr with
  | none => simp
  | some found => simp

theorem lookup_remove (table : AllowedIps D) (owner : D) (network : IpNetwork) :
    AList.lookup network (remove table fun data => data = owner) =
      if AList.lookup network table = some owner then none else AList.lookup network table := by
  rw [remove, Assoc.lookup_retain]
  cases AList.lookup network table with
  | none => rfl
  | some found =>
    by_cases heq : found = owner
    · simp [heq]
    · simp [heq]

/-- Taking the entries of an owner out and putting those of `kept` and `given` in. -/
theorem lookup_reinsert (table : AllowedIps D) (owner : D) (kept given : List AllowedIP)
    (network : IpNetwork) :
    AList.lookup network (insertAll (remove table fun data => data = owner) (kept ++ given) owner) =
      if network ∈ given.map IpNetwork.newTruncate then some owner
      else if network ∈ kept.map IpNetwork.newTruncate then some owner
      else if AList.lookup network table = some owner then none
      else AList.lookup network table := by
  rw [insertAll_eq, Assoc.lookup_giveAll, lookup_remove, List.map_append]
  by_cases hgiven : network ∈ given.map IpNetwork.newTruncate
  · rw [if_pos hgiven, if_pos (List.mem_append_right _ hgiven)]
  · rw [if_neg hgiven]
    by_cases hkept : network ∈ kept.map IpNetwork.newTruncate
    · rw [if_pos hkept, if_pos (List.mem_append_left _ hkept)]
    · rw [if_neg hkept, if_neg (by simp only [List.mem_append]; tauto)]

theorem mem_indexPrefixes {index : AllowedIps D} {owner : D} {network : IpNetwork} :
    network ∈ (indexPrefixes index owner).map IpNetwork.newTruncate ↔
      AList.lookup network index = some owner := by
  rw [indexPrefixes, List.map_map]
  have hid : IpNetwork.newTruncate ∘ IpNetwork.toAllowedIP = id := funext fun n => by simp
  rw [hid, List.map_id, Assoc.mem_keysOf]

end AllowedIps

end BoringTun

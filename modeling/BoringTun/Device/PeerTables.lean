import BoringTun.Device.Interface
import BoringTun.Lib.Holdings
import BoringTun.Lib.Machine

/-!
The three tables of a device's peers (`device/mod.rs`): by public key, by index and by allowed
IP. What an operation does to the first two is said once, for all operations (`Reindexed`),
and what it does to the third is a change of hands (`Interface.handover`); that the tables
agree, and that every prefix is with the peer it was last given to, follows for all runs
(`peer_tables`).
-/

namespace BoringTun

namespace Interface

variable {P : Primitives} {d d' : Interface P}

/-- A peer of the map. -/
def Member (d : Interface P) (ref : PeerRef) : Prop := ∃ key, d.peers.lookup key = some ref

/-! ### Keys and indices -/

/-- The tables by key and by index hold the same peers, each once and under its own index, and
no index was handed out twice. -/
structure Indexed (d : Interface P) : Prop where
  once : ∀ {key key' ref}, d.peers.lookup key = some ref → d.peers.lookup key' = some ref →
    key = key'
  allocated : ∀ {ref}, d.Member ref → ref < d.nextRef
  byIndex : ∀ {ref}, d.Member ref → d.peersByIdx.lookup (d.peer ref).index = some ref
  ofIndex : ∀ {index ref}, d.peersByIdx.lookup index = some ref →
    (d.peer ref).index = index ∧ d.Member ref
  issued : ∀ {ref}, d.Member ref → d.nextIndex.Issued (d.peer ref).index

/-- What an operation can do to the tables by key and by index. -/
inductive Reindexed (d d' : Interface P) : Prop where
  /-- At most an index is drawn. -/
  | kept (hpeers : d'.peers = d.peers) (hbyIdx : d'.peersByIdx = d.peersByIdx)
    (href : d'.nextRef = d.nextRef) (hindex : ∀ ref, (d'.peer ref).index = (d.peer ref).index)
    (hissued : ∀ index, d.nextIndex.Issued index → d'.nextIndex.Issued index)
  | removed {key : P.Value} {ref : PeerRef} (hlookup : d.peers.lookup key = some ref)
    (hpeers : d'.peers = d.peers.erase key)
    (hbyIdx : d'.peersByIdx = d.peersByIdx.erase (d.peer ref).index)
    (href : d'.nextRef = d.nextRef) (hindex : ∀ ref, (d'.peer ref).index = (d.peer ref).index)
    (hnext : d'.nextIndex = d.nextIndex)
  | cleared (hpeers : d'.peers = ∅) (hbyIdx : d'.peersByIdx = ∅)
  | added {key : P.Value} {index : UInt32} (hnew : d.peers.lookup key = none)
    (hnext : d.nextIndex.next = some (index, d'.nextIndex))
    (hpeers : d'.peers = d.peers.insert key d.nextRef)
    (hbyIdx : d'.peersByIdx = d.peersByIdx.insert index d.nextRef)
    (href : d'.nextRef = d.nextRef + 1) (hown : (d'.peer d.nextRef).index = index)
    (hindex : ∀ ref < d.nextRef, (d'.peer ref).index = (d.peer ref).index)

theorem Indexed.of_empty (hpeers : d.peers = ∅) (hbyIdx : d.peersByIdx = ∅) : d.Indexed where
  once hkey _ := by simp [hpeers] at hkey
  allocated hmember := by simp [Member, hpeers] at hmember
  byIndex hmember := by simp [Member, hpeers] at hmember
  ofIndex hindex := by simp [hbyIdx] at hindex
  issued hmember := by simp [Member, hpeers] at hmember

theorem Indexed.remove (h : d.Indexed) {key : P.Value} {ref : PeerRef}
    (hlookup : d.peers.lookup key = some ref) (hpeers : d'.peers = d.peers.erase key)
    (hbyIdx : d'.peersByIdx = d.peersByIdx.erase (d.peer ref).index)
    (href : d'.nextRef = d.nextRef) (hindex : ∀ ref, (d'.peer ref).index = (d.peer ref).index)
    (hnext : d'.nextIndex = d.nextIndex) : d'.Indexed := by
  have hlookup' : ∀ {key' other}, d'.peers.lookup key' = some other →
      key' ≠ key ∧ d.peers.lookup key' = some other := by
    intro key' other hother
    rw [hpeers] at hother
    exact Assoc.lookup_erase_eq_some.mp hother
  have hmember : ∀ {other}, d'.Member other → d.Member other := by
    rintro other ⟨key', hother⟩
    exact ⟨key', (hlookup' hother).2⟩
  have hindices : ∀ {other}, d.Member other → other ≠ ref →
      (d.peer other).index ≠ (d.peer ref).index := by
    intro other hother hne heq
    have hsame := h.byIndex hother
    rw [heq, h.byIndex ⟨key, hlookup⟩] at hsame
    exact hne (Option.some.inj hsame).symm
  have hne : ∀ {key' other}, d'.peers.lookup key' = some other → other ≠ ref := by
    rintro key' other hother rfl
    obtain ⟨hkey, hother⟩ := hlookup' hother
    exact hkey (h.once hother hlookup)
  constructor
  · intro key₁ key₂ other h₁ h₂
    exact h.once (hlookup' h₁).2 (hlookup' h₂).2
  · intro other hother
    rw [href]
    exact h.allocated (hmember hother)
  · rintro other ⟨key', hother⟩
    rw [hbyIdx, hindex]
    have hmember' := hmember ⟨key', hother⟩
    exact Assoc.lookup_erase_eq_some.mpr ⟨hindices hmember' (hne hother), h.byIndex hmember'⟩
  · intro index other hother
    rw [hbyIdx] at hother
    obtain ⟨hindex', hother⟩ := Assoc.lookup_erase_eq_some.mp hother
    obtain ⟨heq, key', hkey'⟩ := h.ofIndex hother
    refine ⟨by rw [hindex, heq], key', ?_⟩
    rw [hpeers]
    refine Assoc.lookup_erase_eq_some.mpr ⟨?_, hkey'⟩
    rintro rfl
    rw [hlookup] at hkey'
    cases hkey'
    exact hindex' heq.symm
  · intro other hother
    rw [hnext, hindex]
    exact h.issued (hmember hother)

theorem Indexed.add (h : d.Indexed) {key : P.Value} {index : UInt32}
    (hnew : d.peers.lookup key = none) (hnext : d.nextIndex.next = some (index, d'.nextIndex))
    (hpeers : d'.peers = d.peers.insert key d.nextRef)
    (hbyIdx : d'.peersByIdx = d.peersByIdx.insert index d.nextRef)
    (href : d'.nextRef = d.nextRef + 1) (hown : (d'.peer d.nextRef).index = index)
    (hindex : ∀ ref < d.nextRef, (d'.peer ref).index = (d.peer ref).index) : d'.Indexed := by
  obtain ⟨-, hfresh, hissued, hkept⟩ := IndexLfsr.next_fresh hnext
  have hlookup' : ∀ {key' other}, d'.peers.lookup key' = some other →
      key' = key ∧ other = d.nextRef ∨ key' ≠ key ∧ d.peers.lookup key' = some other := by
    intro key' other hother
    rw [hpeers] at hother
    rcases Assoc.lookup_insert_eq_some.mp hother with ⟨hkey, hother⟩ | hold
    · exact .inl ⟨hkey, hother.symm⟩
    · exact .inr hold
  have hmember : ∀ {other}, d'.Member other → other = d.nextRef ∨ d.Member other := by
    rintro other ⟨key', hother⟩
    rcases hlookup' hother with ⟨-, hother⟩ | ⟨-, hother⟩
    · exact .inl hother
    · exact .inr ⟨key', hother⟩
  have hold : ∀ {other}, d.Member other → (d'.peer other).index = (d.peer other).index :=
    fun hother => hindex _ (h.allocated hother)
  have hindices : ∀ {other}, d.Member other → (d.peer other).index ≠ index := by
    rintro other hother rfl
    exact hfresh (h.issued hother)
  constructor
  · intro key₁ key₂ other h₁ h₂
    rcases hlookup' h₁ with ⟨rfl, rfl⟩ | ⟨-, h₁⟩ <;> rcases hlookup' h₂ with ⟨rfl, hother⟩ | ⟨-, h₂⟩
    · rfl
    · exact absurd (h.allocated ⟨_, h₂⟩) (Nat.lt_irrefl _)
    · exact absurd (hother ▸ h.allocated ⟨_, h₁⟩) (Nat.lt_irrefl _)
    · exact h.once h₁ h₂
  · intro other hother
    rw [href]
    rcases hmember hother with rfl | hother
    · exact Nat.lt_succ_self _
    · exact Nat.lt_succ_of_lt (h.allocated hother)
  · intro other hother
    rw [hbyIdx]
    rcases hmember hother with rfl | hother
    · rw [hown]
      exact AList.lookup_insert _
    · rw [hold hother]
      exact Assoc.lookup_insert_eq_some.mpr (.inr ⟨hindices hother, h.byIndex hother⟩)
  · intro index' other hother
    rw [hbyIdx] at hother
    rcases Assoc.lookup_insert_eq_some.mp hother with ⟨rfl, rfl⟩ | ⟨hne, hother⟩
    · exact ⟨hown, key, by rw [hpeers]; exact AList.lookup_insert _⟩
    · obtain ⟨heq, key', hkey'⟩ := h.ofIndex hother
      refine ⟨(hold ⟨key', hkey'⟩).trans heq, key', ?_⟩
      rw [hpeers]
      refine Assoc.lookup_insert_eq_some.mpr (.inr ⟨?_, hkey'⟩)
      rintro rfl
      exact absurd (hnew.symm.trans hkey') nofun
  · intro other hother
    rcases hmember hother with rfl | hother
    · rw [hown]
      exact hissued
    · rw [hold hother]
      exact hkept _ (h.issued hother)

theorem Indexed.reindexed (h : d.Indexed) (hstep : Reindexed d d') : d'.Indexed := by
  cases hstep with
  | kept hpeers hbyIdx href hindex hissued =>
    constructor
    · intro key key' ref
      rw [hpeers]
      exact h.once
    · intro ref hmember
      rw [Member, hpeers] at hmember
      rw [href]
      exact h.allocated hmember
    · intro ref hmember
      rw [Member, hpeers] at hmember
      rw [hbyIdx, hindex]
      exact h.byIndex hmember
    · intro index ref hlookup
      rw [hbyIdx] at hlookup
      rw [hindex, Member, hpeers]
      exact h.ofIndex hlookup
    · intro ref hmember
      rw [Member, hpeers] at hmember
      rw [hindex]
      exact hissued _ (h.issued hmember)
  | removed hlookup hpeers hbyIdx href hindex hnext =>
    exact h.remove hlookup hpeers hbyIdx href hindex hnext
  | cleared hpeers hbyIdx => exact .of_empty hpeers hbyIdx
  | added hnew hnext hpeers hbyIdx href hown hindex =>
    exact h.add hnew hnext hpeers hbyIdx href hown hindex

/-! ### What each operation does -/

/-- Nothing of the tables changes, and no peer changes its index. -/
structure SameTables (d d' : Interface P) : Prop where
  peers : d'.peers = d.peers
  byIdx : d'.peersByIdx = d.peersByIdx
  byIp : d'.peersByIp = d.peersByIp
  nextRef : d'.nextRef = d.nextRef
  nextIndex : d'.nextIndex = d.nextIndex
  index : ∀ ref, (d'.peer ref).index = (d.peer ref).index

theorem SameTables.refl (d : Interface P) : SameTables d d := ⟨rfl, rfl, rfl, rfl, rfl, fun _ => rfl⟩

theorem SameTables.reindexed (h : SameTables d d') : Reindexed d d' :=
  .kept h.peers h.byIdx h.nextRef h.index fun _ => by rw [h.nextIndex]; exact id

theorem index_mapPeers {f : Peer P → Peer P} (hf : ∀ p, (f p).index = p.index) (ref : PeerRef) :
    (d.mapPeers f ref).index = (d.peer ref).index := by
  unfold mapPeers
  split
  · exact hf _
  · rfl

theorem setKey_sameTables (d : Interface P) (privateKey : P.Secret) (seed : RateLimiterSeed P) :
    SameTables d (d.setKey privateKey seed) := by
  unfold setKey
  dsimp only
  split
  · exact .refl d
  · exact ⟨rfl, rfl, rfl, rfl, rfl, index_mapPeers fun _ => rfl⟩

theorem setObfuscation_sameTables (d : Interface P) (obf : ObfuscationRanges)
    (amnezia : AmneziaConfig) : SameTables d (d.setObfuscation obf amnezia).2 := by
  unfold setObfuscation
  split
  · exact .refl d
  · exact ⟨rfl, rfl, rfl, rfl, rfl, index_mapPeers fun _ => rfl⟩

theorem applyParams_sameTables (d : Interface P) (params : AwgParams) :
    SameTables d (d.applyParams params).2 := by
  unfold applyParams
  split
  · exact .refl d
  · split
    · exact .refl d
    · exact d.setObfuscation_sameTables _ _

theorem refreshMtu_sameTables (d : Interface P) (mtu : Nat) : SameTables d (d.refreshMtu mtu) := by
  unfold refreshMtu
  dsimp only
  split
  · exact ⟨rfl, rfl, rfl, rfl, rfl, fun _ => rfl⟩
  · exact ⟨rfl, rfl, rfl, rfl, rfl, index_mapPeers fun _ => rfl⟩

theorem openListenSocket_sameTables (d : Interface P) (port : Nat)
    (bound : Except DeviceError Nat) : SameTables d (d.openListenSocket port bound).2 := by
  unfold openListenSocket
  split
  · exact .refl d
  · split
    · exact .refl d
    · exact ⟨rfl, rfl, rfl, rfl, rfl, index_mapPeers fun _ => rfl⟩

theorem setFwmark_sameTables (d : Interface P) (mark : Nat) (marked : Except DeviceError Unit) :
    SameTables d (d.setFwmark mark marked).2 := by
  cases marked with
  | error e => exact .refl d
  | ok => exact ⟨rfl, rfl, rfl, rfl, rfl, fun _ => rfl⟩

theorem index_update {peer : Peer P} {ref : PeerRef} (h : peer.index = (d.peer ref).index)
    (other : PeerRef) : (Function.update d.peer ref peer other).index = (d.peer other).index := by
  by_cases heq : other = ref
  · subst heq
    rw [Function.update_self, h]
  · rw [Function.update_of_ne heq]

theorem removePeer_reindexed (d : Interface P) (pubKey : P.Value) :
    Reindexed d (d.removePeer pubKey) := by
  unfold removePeer
  split
  · exact (SameTables.refl d).reindexed
  · next ref hlookup =>
    exact .removed hlookup rfl rfl rfl (index_update rfl) rfl

theorem mergePeer_reindexed (d : Interface P) (ref : PeerRef) (update : PeerUpdate P) :
    Reindexed d (d.mergePeer ref update) := by
  have hindex := d.index_update (mergedPeer_index (d.peer ref) update)
  unfold mergePeer
  dsimp only
  split
  · exact .kept rfl rfl rfl hindex fun _ => id
  · exact .kept rfl rfl rfl hindex fun _ => id

theorem addPeer_reindexed {update : PeerUpdate P} {seed : TunnSeed P}
    {result : Except DeviceError Unit} (hnew : d.peers.lookup update.pubKey = none)
    (h : d.addPeer update seed = some (result, d')) : Reindexed d d' := by
  cases addPeer_eq_some h with
  | refused hnext =>
    obtain ⟨-, -, -, hkept⟩ := IndexLfsr.next_fresh hnext
    exact .kept rfl rfl rfl (fun _ => rfl) hkept
  | @added index nextIndex _ _ tunnel hnext =>
    refine .added hnew hnext rfl ?_ rfl ?_ ?_
    · dsimp only [insertPeer]
      rw [newPeer_index]
    · dsimp only [insertPeer]
      rw [Function.update_self, newPeer_index]
    · intro ref hlt
      dsimp only [insertPeer]
      rw [Function.update_of_ne (Nat.ne_of_lt hlt)]

theorem updatePeer_reindexed {update : PeerUpdate P} {seed : TunnSeed P}
    {result : Except DeviceError Unit} (h : d.updatePeer update seed = some (result, d')) :
    Reindexed d d' := by
  unfold updatePeer at h
  split at h
  · cases h
    exact d.removePeer_reindexed _
  · split at h
    · cases h
      exact d.mergePeer_reindexed _ _
    · next hnew => exact addPeer_reindexed hnew h

/-- The operations that are not about peers. -/
def Change.IsSetting : Change P → Prop
  | .removePeer _ | .clearPeers | .updatePeer .. => False
  | _ => True

theorem perform_sameTables {change : Change P} (h : d.perform change = some d')
    (hsetting : change.IsSetting) : SameTables d d' := by
  cases change with
  | setKey privateKey seed =>
    cases h
    exact d.setKey_sameTables privateKey seed
  | applyParams params =>
    cases h
    exact d.applyParams_sameTables params
  | refreshMtu mtu =>
    cases h
    exact d.refreshMtu_sameTables mtu
  | openListenSocket port bound =>
    cases h
    exact d.openListenSocket_sameTables port bound
  | setFwmark mark marked =>
    cases h
    exact d.setFwmark_sameTables mark marked
  | removePeer | clearPeers | updatePeer => exact hsetting.elim

theorem perform_reindexed {change : Change P} (h : d.perform change = some d') :
    Reindexed d d' := by
  cases change with
  | setKey | applyParams | refreshMtu | openListenSocket | setFwmark =>
    exact (perform_sameTables h trivial).reindexed
  | removePeer pubKey =>
    cases h
    exact d.removePeer_reindexed pubKey
  | clearPeers =>
    cases h
    exact .cleared rfl rfl
  | updatePeer update seed =>
    obtain ⟨⟨result, _⟩, hupdate, rfl⟩ := Option.map_eq_some_iff.mp h
    exact updatePeer_reindexed hupdate

/-! ### Prefixes -/

/-- The networks an update names. -/
def networks (update : PeerUpdate P) : List IpNetwork := update.allowedIps.map .newTruncate

/-- The peer of a key leaves. -/
def departure (d : Interface P) (pubKey : P.Value) : Handover IpNetwork PeerRef :=
  match d.peers.lookup pubKey with
  | some ref => .leave ref
  | none => .keep

/-- Which peer an operation gives which prefixes, and which one it takes them from: a merge gives
what it names, a new peer gets what the update names once it is there. -/
def handover (d : Interface P) : Change P → Handover IpNetwork PeerRef
  | .removePeer pubKey => d.departure pubKey
  | .clearPeers => .clear
  | .updatePeer update seed =>
    if update.remove then d.departure update.pubKey
    else
      match d.peers.lookup update.pubKey with
      | some ref => .give ref (networks update) update.replaceIps
      | none =>
        match d.addPeer update seed with
        | some (.ok (), _) => .give d.nextRef (networks update) false
        | _ => .keep
  | _ => .keep

/-- The table of prefixes. -/
def ownerOf (d : Interface P) (network : IpNetwork) : Option PeerRef :=
  AList.lookup network d.peersByIp

/-- What an operation does to prefixes and members, given its change of hands. -/
structure HandsOver (d : Interface P) (change : Handover IpNetwork PeerRef) (d' : Interface P) :
    Prop where
  owner : ∀ network, d'.ownerOf network = change.apply d.ownerOf network
  given : ∀ {network ref}, change.Gives network ref → d'.Member ref
  stays : ∀ {ref}, d.Member ref → ¬ change.Ends ref → d'.Member ref

theorem SameTables.handsOver (h : SameTables d d') : HandsOver d .keep d' where
  owner network := by rw [ownerOf, h.byIp]; rfl
  given hgives := hgives.elim
  stays hmember _ := by rw [Member, h.peers]; exact hmember

theorem removePeer_handsOver (d : Interface P) (pubKey : P.Value) :
    HandsOver d (d.departure pubKey) (d.removePeer pubKey) := by
  unfold departure removePeer
  cases hlookup : d.peers.lookup pubKey with
  | none => exact (SameTables.refl d).handsOver
  | some ref =>
    constructor
    · intro network
      exact AllowedIps.lookup_remove d.peersByIp ref network
    · exact fun hgives => hgives.elim
    · rintro other ⟨key, hkey⟩ hstays
      refine ⟨key, Assoc.lookup_erase_eq_some.mpr ⟨?_, hkey⟩⟩
      rintro rfl
      exact hstays (Option.some.inj (hlookup.symm.trans hkey))

theorem clearPeers_handsOver (d : Interface P) : HandsOver d .clear d.clearPeers where
  owner network := AList.lookup_empty network
  given hgives := hgives.elim
  stays _ hends := absurd trivial hends

/-- A merge gives the peer what it names; what the peer had it keeps, or loses to a replacing
update, and nothing of another peer's changes hands without being named. -/
theorem mergePeer_ownerOf (d : Interface P) (ref : PeerRef) (update : PeerUpdate P)
    (network : IpNetwork) :
    (d.mergePeer ref update).ownerOf network =
      (Handover.give ref (networks update) update.replaceIps).apply d.ownerOf network := by
  unfold mergePeer ownerOf Handover.apply
  dsimp only
  by_cases hips : update.replaceIps = true ∨ update.allowedIps ≠ []
  · rw [if_pos hips]
    dsimp only [peerAllowedIps]
    rw [AllowedIps.lookup_reinsert]
    change (if network ∈ networks update then _ else _) = _
    congr 1
    cases update.replaceIps with
    | true => simp
    | false =>
      simp only [Bool.false_eq_true, if_false, false_and, AllowedIps.mem_indexPrefixes]
      split
      · next howner => exact howner.symm
      · rfl
  · rw [if_neg hips]
    obtain ⟨hreplace, hnone⟩ := not_or.mp hips
    simp [networks, hreplace, not_not.mp hnone]

theorem mergePeer_handsOver {pubKey : P.Value} {ref : PeerRef}
    (hlookup : d.peers.lookup pubKey = some ref) (update : PeerUpdate P) :
    HandsOver d (.give ref (networks update) update.replaceIps) (d.mergePeer ref update) := by
  have hpeers : (d.mergePeer ref update).peers = d.peers := by
    unfold mergePeer
    dsimp only
    split <;> rfl
  refine ⟨d.mergePeer_ownerOf ref update, ?_, ?_⟩
  · rintro network other ⟨rfl, -⟩
    exact ⟨pubKey, by rw [hpeers]; exact hlookup⟩
  · rintro other ⟨key, hkey⟩ -
    exact ⟨key, by rw [hpeers]; exact hkey⟩

theorem addPeer_handsOver {update : PeerUpdate P} {seed : TunnSeed P}
    {result : Except DeviceError Unit} (hnew : d.peers.lookup update.pubKey = none)
    (h : d.addPeer update seed = some (result, d')) :
    HandsOver d (match d.addPeer update seed with
      | some (.ok (), _) => .give d.nextRef (networks update) false
      | _ => .keep) d' := by
  rw [h]
  cases addPeer_eq_some h with
  | refused hnext => exact ⟨fun _ => rfl, fun hgives => hgives.elim, fun hmember _ => hmember⟩
  | added hnext =>
    refine ⟨fun network => ?_, ?_, ?_⟩
    · simp only [ownerOf, insertPeer, AllowedIps.insertAll_eq, Assoc.lookup_giveAll, Handover.apply,
        Bool.false_eq_true, false_and, if_false]
      rfl
    · rintro network other ⟨rfl, -⟩
      exact ⟨update.pubKey, AList.lookup_insert _⟩
    · rintro other ⟨key, hkey⟩ -
      refine ⟨key, Assoc.lookup_insert_eq_some.mpr (.inr ⟨?_, hkey⟩)⟩
      rintro rfl
      cases hnew.symm.trans hkey

theorem perform_handsOver {change : Change P} (h : d.perform change = some d') :
    HandsOver d (d.handover change) d' := by
  cases change with
  | setKey | applyParams | refreshMtu | openListenSocket | setFwmark =>
    exact (perform_sameTables h trivial).handsOver
  | removePeer pubKey =>
    cases h
    exact d.removePeer_handsOver pubKey
  | clearPeers =>
    cases h
    exact d.clearPeers_handsOver
  | updatePeer update seed =>
    obtain ⟨⟨result, _⟩, hupdate, rfl⟩ := Option.map_eq_some_iff.mp h
    dsimp only [handover]
    unfold updatePeer at hupdate
    by_cases hremove : update.remove
    · rw [if_pos hremove] at hupdate ⊢
      cases hupdate
      exact d.removePeer_handsOver _
    · rw [if_neg hremove] at hupdate ⊢
      cases hlookup : d.peers.lookup update.pubKey with
      | some ref =>
        rw [hlookup] at hupdate
        cases hupdate
        exact mergePeer_handsOver hlookup update
      | none =>
        rw [hlookup] at hupdate
        exact addPeer_handsOver hlookup hupdate

/-! ### Runs -/

/-- A device as `Device::new` makes it, whatever its settings. -/
structure NoPeers (d : Interface P) : Prop where
  peers : d.peers = ∅
  byIdx : d.peersByIdx = ∅
  byIp : d.peersByIp = ∅

/-- The three tables of a device agree. -/
structure Consistent (d : Interface P) : Prop where
  same : ∀ ref, d.Member ref ↔ ∃ index, d.peersByIdx.lookup index = some ref
  keyed : ∀ index ref, d.peersByIdx.lookup index = some ref → (d.peer ref).index = index
  owners : ∀ network ref, d.ownerOf network = some ref → d.Member ref

/-- An operation of a run, with the device it found. -/
structure Call (P : Primitives) where
  before : Interface P
  change : Change P

def Call.handover (call : Call P) : Handover IpNetwork PeerRef := call.before.handover call.change

def Call.Step (call : Call P) (d d' : Interface P) : Prop :=
  call.before = d ∧ d.perform call.change = some d'

/-- What every run keeps, with the account of who holds which prefix. -/
structure Kept (d : Interface P) (held : IpNetwork → Option PeerRef) : Prop where
  indexed : d.Indexed
  owners : ∀ {network ref}, d.ownerOf network = some ref → d.Member ref
  held : d.ownerOf = held

theorem Kept.step {held : IpNetwork → Option PeerRef} {call : Call P} (h : Kept d held)
    (hstep : call.Step d d') : Kept d' (call.handover.apply held) := by
  obtain ⟨rfl, hperform⟩ := hstep
  have hhands := perform_handsOver hperform
  refine ⟨h.indexed.reindexed (perform_reindexed hperform), ?_, ?_⟩
  · intro network ref howner
    rw [hhands.owner, Handover.apply_eq_some] at howner
    rcases howner with hgives | ⟨hheld, -, hstays⟩
    · exact hhands.given hgives
    · exact hhands.stays (h.owners hheld) hstays
  · rw [← h.held]
    exact funext hhands.owner

theorem Kept.of_noPeers (h : d.NoPeers) : Kept d fun _ => none where
  indexed := .of_empty h.peers h.byIdx
  owners howner := by simp [ownerOf, h.byIp] at howner
  held := by
    funext network
    rw [ownerOf, h.byIp, AList.lookup_empty]

theorem Indexed.consistent (h : d.Indexed)
    (howners : ∀ {network ref}, d.ownerOf network = some ref → d.Member ref) : d.Consistent where
  same ref := by
    constructor
    · intro hmember
      exact ⟨_, h.byIndex hmember⟩
    · rintro ⟨index, hindex⟩
      exact (h.ofIndex hindex).2
  keyed index ref hindex := (h.ofIndex hindex).1
  owners network ref howner := howners howner

theorem peerOwns_iff {ref : PeerRef} {addr : IpAddr} :
    d.peerOwns ref addr = true ↔ ∃ network : IpNetwork, network.contains addr ∧
      d.ownerOf network = some ref ∧
      ∀ other : IpNetwork, other.contains addr → network.netmask < other.netmask →
        d.ownerOf other = none := by
  rw [peerOwns, AllowedIps.indexOwns_iff, AllowedIps.find_eq_some]
  rfl

/-- An additive update leaves every prefix it does not name with its owner. -/
theorem additive_ownerOf {update : PeerUpdate P} {seed : TunnSeed P}
    (hkeep : update.remove = false) (hadd : update.replaceIps = false)
    (h : d.perform (.updatePeer update seed) = some d') {network : IpNetwork}
    (hother : network ∉ networks update) : d'.ownerOf network = d.ownerOf network := by
  rw [(perform_handsOver h).owner]
  simp only [handover, hkeep, hadd, Bool.false_eq_true, if_false]
  split
  · simp [Handover.apply, hother]
  · split
    · simp [Handover.apply, hother]
    · rfl

/-- Over every run: the tables agree, each prefix is with the peer it was last given to, an
address is a peer's if the longest prefix around it is, and an additive update moves only what
it names. -/
theorem peer_tables {d₀ d : Interface P} {calls : List (Call P)} (hnew : d₀.NoPeers)
    (hrun : Trace Call.Step d₀ calls d) :
    d.Consistent ∧
    (∀ network ref, d.ownerOf network = some ref ↔
      Handover.LastGiven (calls.map Call.handover) network ref) ∧
    (∀ ref addr, d.peerOwns ref addr = true ↔ ∃ network : IpNetwork, network.contains addr ∧
      d.ownerOf network = some ref ∧
      ∀ other : IpNetwork, other.contains addr → network.netmask < other.netmask →
        d.ownerOf other = none) ∧
    (∀ update seed d', update.remove = false → update.replaceIps = false →
      d.perform (.updatePeer update seed) = some d' →
      ∀ network, network ∉ networks update → d'.ownerOf network = d.ownerOf network) := by
  have hkept : Kept d (calls.foldl (fun held call => call.handover.apply held) fun _ => none) :=
    hrun.account (fun call d d' held hstep hd => Kept.step hd hstep) (.of_noPeers hnew)
  refine ⟨hkept.indexed.consistent hkept.owners, ?_, ?_, ?_⟩
  · intro network ref
    rw [← Handover.holder_iff, List.foldl_map, hkept.held]
  · intro ref addr
    exact peerOwns_iff
  · intro update seed d' hkeep hadd hperform network hother
    exact additive_ownerOf hkeep hadd hperform hother

/-! ### A prefix that moves -/

def byteInterface : Interface bytePrimitives where
  keyPair := none
  rateLimiter := none
  obf := .default
  amnezia := {}
  mtu := 1420
  listenPort := 0
  listening := false
  fwmark := none
  imitationHints := .empty
  nextIndex := .new ⟨5, by decide⟩ ⟨7, by decide⟩
  peers := ∅
  peersByIdx := ∅
  peersByIp := ∅
  peer := fun _ => .new byteHome 1 none none
  nextRef := 0
  limiters := fun _ => byteHome.rateLimiter
  limiterOf := fun _ => 0
  nextLimiter := 1
  limited := rfl
  matched := nofun

/-- 10.0.0.0/8 and 10.2.0.0/16, with host bits. -/
def byteNet : AllowedIP := ⟨.v4 0x0a010203, 8, by decide⟩

@[inherit_doc byteNet]
def byteSubnet : AllowedIP := ⟨.v4 0x0a020000, 16, by decide⟩

/-- Two peers are given one prefix after the other, and the first is then given another. -/
def byteChanges : List (Change bytePrimitives) :=
  [.setKey (1 : UInt8) byteSeed.limiter,
    .updatePeer { pubKey := (6 : UInt8), allowedIps := [byteNet] } byteSeed,
    .updatePeer { pubKey := (9 : UInt8), allowedIps := [byteNet] } byteSeed,
    .updatePeer { pubKey := (6 : UInt8), allowedIps := [byteSubnet] } byteSeed]

/-- A run of operations, if none of them panics. -/
def runAll (d : Interface P) : List (Change P) → Option (List (Call P) × Interface P)
  | [] => some ([], d)
  | change :: rest =>
    (d.perform change).bind fun d' =>
      (d'.runAll rest).map fun out => (⟨d, change⟩ :: out.1, out.2)

theorem trace_runAll {d d' : Interface P} {changes : List (Change P)} {calls : List (Call P)}
    (h : d.runAll changes = some (calls, d')) : Trace Call.Step d calls d' := by
  induction changes generalizing d calls with
  | nil =>
    cases h
    exact .nil _
  | cons change rest ih =>
    obtain ⟨next, hnext, hrest⟩ := Option.bind_eq_some_iff.mp h
    obtain ⟨⟨calls', _⟩, hrun, heq⟩ := Option.map_eq_some_iff.mp hrest
    cases heq
    exact .cons ⟨rfl, hnext⟩ (ih hrun)

def byteRun : List (Call bytePrimitives) × Interface bytePrimitives :=
  (byteInterface.runAll byteChanges).get (by decide +kernel)

/-- The first prefix stays with the second peer, the other is the first peer's. -/
theorem peer_tables_byteRun :
    byteRun.2.ownerOf (.newTruncate byteNet) = some 1 ∧
      byteRun.2.ownerOf (.newTruncate byteSubnet) = some 0 ∧ byteRun.2.Consistent ∧
      Handover.LastGiven (byteRun.1.map Call.handover) (.newTruncate byteNet) 1 := by
  have hall : byteInterface.runAll byteChanges = some byteRun := (Option.some_get _).symm
  have hrun : Trace Call.Step byteInterface byteRun.1 byteRun.2 := trace_runAll hall
  obtain ⟨hconsistent, howner, -, -⟩ := peer_tables ⟨rfl, rfl, rfl⟩ hrun
  have hnet : byteRun.2.ownerOf (.newTruncate byteNet) = some 1 := by decide +kernel
  have hsubnet : byteRun.2.ownerOf (.newTruncate byteSubnet) = some 0 := by decide +kernel
  exact ⟨hnet, hsubnet, hconsistent, (howner _ _).mp hnet⟩

end Interface

end BoringTun

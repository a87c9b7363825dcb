import BoringTun.Device.UapiWhole

/-!
A device and its peers agree on framing and keys.

A tunnel has a copy of the device's H ranges, AmneziaWG configuration and static key
(`Settings`), and refers to its limiter. The copies are written when a peer is added and by
every operation that changes the original (`perform_agreed`), and a transaction is nothing but
such operations (`apiSetLines_changes`); `device_agreement` is about all runs of transactions and
refreshes of the MTU.
-/

namespace BoringTun

variable {P : Primitives}

/-- What a device and the tunnels of its peers have in common. -/
structure Settings (P : Primitives) where
  obf : ObfuscationRanges
  amnezia : AmneziaConfig
  staticPrivate : P.Secret

/-! ### What the setters leave -/

namespace Tunn

variable (t : Tunn P)

def settings : Settings P := ⟨t.handshake.obf, t.amnezia, t.handshake.params.staticPrivate⟩

theorem Installs.settings {t t' : Tunn P} {obf : ObfuscationRanges} {amnezia : AmneziaConfig}
    (h : t.Installs obf amnezia t') :
    t'.settings = ⟨obf, amnezia, t.handshake.params.staticPrivate⟩ := by
  cases h
  rfl

/-- What passes the check is not refused. -/
theorem trySetObfuscation_checked (obf : ObfuscationRanges) {amnezia : AmneziaConfig}
    (checked : amnezia.checkHeaderProtectionNonce = .ok ()) :
    t.trySetObfuscation obf amnezia = .ok (t.applyObfuscation obf amnezia checked) := by
  unfold trySetObfuscation
  split
  · next hrefused => exact absurd (hrefused.symm.trans checked) nofun
  · rfl

theorem settings_setObfuscation (obf : ObfuscationRanges) {amnezia : AmneziaConfig}
    (checked : amnezia.checkHeaderProtectionNonce = .ok ()) :
    (t.setObfuscation obf amnezia).settings =
      ⟨obf, amnezia, t.handshake.params.staticPrivate⟩ := by
  unfold setObfuscation
  rw [t.trySetObfuscation_checked obf checked]
  exact (t.applyObfuscation_installs obf checked).settings

@[simp] theorem settings_setPresharedKey (presharedKey : Option P.Value) :
    (t.setPresharedKey presharedKey).settings = t.settings := by
  unfold setPresharedKey
  dsimp only
  split <;> rfl

@[simp] theorem settings_setPersistentKeepaliveRange (low high : Nat) :
    (t.setPersistentKeepaliveRange low high).2.settings = t.settings := by
  unfold setPersistentKeepaliveRange
  split <;> rfl

theorem settings_newWithObfuscation {staticPrivate : P.Secret} {peerStaticPublic : P.Value}
    {presharedKey : Option P.Value} {persistentKeepalive : Option Nat} {index : UInt32}
    {rateLimiter : Option (RateLimiter P)} {obf : ObfuscationRanges} {amnezia : AmneziaConfig}
    {seed : TunnSeed P} {t : Tunn P}
    (h : newWithObfuscation staticPrivate peerStaticPublic presharedKey persistentKeepalive index
      rateLimiter obf amnezia seed = .ok t) : t.settings = ⟨obf, amnezia, staticPrivate⟩ := by
  unfold newWithObfuscation at h
  split at h
  · cases h
  · split at h
    · cases h
    · cases h
      rfl

end Tunn

namespace Peer

variable (p : Peer P)

@[simp] theorem settings_moveEndpoint (addr : SocketAddr) (resetWindow : Bool) :
    (p.moveEndpoint addr resetWindow).tunnel.settings = p.tunnel.settings := by
  unfold moveEndpoint
  dsimp only
  split
  · cases resetWindow with
    | false => rfl
    | true => rfl
  · rfl

end Peer

namespace Interface

variable {d d' : Interface P} {ref : PeerRef}

@[simp] theorem settings_withEndpoint (p : Peer P) (endpoint : Option SocketAddr) :
    (withEndpoint p endpoint).tunnel.settings = p.tunnel.settings := by
  cases endpoint with
  | none => rfl
  | some addr =>
    dsimp only [withEndpoint]
    split
    · exact Peer.settings_moveEndpoint _ _ _
    · exact Peer.settings_moveEndpoint _ _ _

@[simp] theorem settings_withKeepalive (p : Peer P) (keepalive : Option (Nat × Nat)) :
    (withKeepalive p keepalive).tunnel.settings = p.tunnel.settings := by
  cases keepalive with
  | none => rfl
  | some range => exact p.tunnel.settings_setPersistentKeepaliveRange _ _

theorem settings_mergedPeer (p : Peer P) (update : PeerUpdate P) :
    (mergedPeer p update).tunnel.settings = p.tunnel.settings := by
  unfold mergedPeer
  dsimp only
  split
  · simp [Peer.setPresharedKey]
  · simp

/-! ### Agreement -/

/-- What the device has of it; a device without a key has no peers. -/
def settings (d : Interface P) : Option (Settings P) :=
  d.keyPair.map fun pair => ⟨d.obf, d.amnezia, pair.1⟩

/-- The tunnel of a peer has the settings of the device and is on its limiter. -/
structure Agrees (d : Interface P) (ref : PeerRef) : Prop where
  settings : d.settings = some (d.peer ref).tunnel.settings
  limiter : d.rateLimiter = some (d.limiterOf ref)

/-- All peers of a device agree with it. -/
def Agreed (d : Interface P) : Prop := ∀ ref, d.Member ref → d.Agrees ref

/-- The device and the peer change their settings alike. -/
theorem Agrees.map (h : d.Agrees ref) (change : Settings P → Settings P)
    (hsettings : ∀ s, d.settings = some s → d'.settings = some (change s))
    (htunnel : (d'.peer ref).tunnel.settings = change (d.peer ref).tunnel.settings)
    (hlimiter : d'.rateLimiter = some (d'.limiterOf ref)) : d'.Agrees ref where
  settings := by rw [htunnel, hsettings _ h.settings]
  limiter := hlimiter

theorem Agrees.of_same (h : d.Agrees ref) (hsettings : d'.settings = d.settings)
    (hlimiter : d'.rateLimiter = d.rateLimiter)
    (htunnel : (d'.peer ref).tunnel.settings = (d.peer ref).tunnel.settings)
    (hof : d'.limiterOf ref = d.limiterOf ref) : d'.Agrees ref :=
  h.map id (fun _ hs => hsettings.trans hs) htunnel (by rw [hlimiter, hof, h.limiter])

theorem mapPeers_member (f : Peer P → Peer P) (hmember : d.Member ref) :
    d.mapPeers f ref = f (d.peer ref) :=
  if_pos (Assoc.mem_values.mpr hmember)

theorem mapPeers_settings {f : Peer P → Peer P}
    (hf : ∀ p, (f p).tunnel.settings = p.tunnel.settings) (ref : PeerRef) :
    (d.mapPeers f ref).tunnel.settings = (d.peer ref).tunnel.settings := by
  unfold mapPeers
  split
  · exact hf _
  · rfl

theorem update_settings {peer : Peer P} {ref : PeerRef}
    (h : peer.tunnel.settings = (d.peer ref).tunnel.settings) (other : PeerRef) :
    (Function.update d.peer ref peer other).tunnel.settings = (d.peer other).tunnel.settings := by
  by_cases heq : other = ref
  · subst heq
    rw [Function.update_self, h]
  · rw [Function.update_of_ne heq]

theorem setKey_agreed (h : d.Agreed) (privateKey : P.Secret) (seed : RateLimiterSeed P) :
    (d.setKey privateKey seed).Agreed := by
  intro ref hmember
  rw [Member, (d.setKey_sameTables privateKey seed).peers] at hmember
  unfold setKey
  dsimp only
  split
  · exact h ref hmember
  · refine (h ref hmember).map (fun s => { s with staticPrivate := privateKey }) ?_ ?_ ?_
    · rintro s hs
      obtain ⟨pair, -, rfl⟩ := Option.map_eq_some_iff.mp hs
      rfl
    · dsimp only
      rw [mapPeers_member _ hmember]
      rfl
    · dsimp only
      rw [if_pos (Assoc.mem_values.mpr hmember)]

/-- A configuration that is checked reaches every peer. -/
theorem setObfuscation_agreed (h : d.Agreed) (obf : ObfuscationRanges) {amnezia : AmneziaConfig}
    (checked : amnezia.checkHeaderProtectionNonce = .ok ()) :
    (d.setObfuscation obf amnezia).2.Agreed := by
  intro ref hmember
  rw [Member, (d.setObfuscation_sameTables obf amnezia).peers] at hmember
  unfold setObfuscation
  split
  · exact h ref hmember
  · refine (h ref hmember).map (fun s => ⟨obf, amnezia, s.staticPrivate⟩) ?_ ?_
      (h ref hmember).limiter
    · rintro s hs
      obtain ⟨pair, hkey, rfl⟩ := Option.map_eq_some_iff.mp hs
      exact congrArg (Option.map _) hkey
    · dsimp only
      rw [mapPeers_member _ hmember]
      exact Tunn.settings_setObfuscation _ obf checked

theorem applyParams_agreed (h : d.Agreed) (params : AwgParams) :
    (d.applyParams params).2.Agreed := by
  unfold applyParams
  split
  · exact h
  · split
    · exact h
    · next hmerged => exact setObfuscation_agreed h _ (AwgParams.merged_checked hmerged)

/-- A device with a peer is on a configuration that passes the check: the peer's tunnel is. -/
theorem Agrees.checked (h : d.Agrees ref) : d.amnezia.checkHeaderProtectionNonce = .ok () := by
  obtain ⟨pair, -, hpair⟩ := Option.map_eq_some_iff.mp h.settings
  have hamnezia : d.amnezia = (d.peer ref).tunnel.amnezia := congrArg Settings.amnezia hpair
  rw [hamnezia]
  exact (d.peer ref).tunnel.checked

theorem applyParams_checked {params : AwgParams}
    (hcheck : d.amnezia.checkHeaderProtectionNonce = .ok ())
    (h : d.applyParams params = (.ok (), d')) :
    d'.amnezia.checkHeaderProtectionNonce = .ok () := by
  unfold applyParams at h
  split at h
  · cases h
    exact hcheck
  · split at h
    · cases h
    · next hmerged =>
      cases h
      rw [setObfuscation_amnezia]
      exact AwgParams.merged_checked hmerged

theorem refreshMtu_agreed (h : d.Agreed) (mtu : Nat) : (d.refreshMtu mtu).Agreed := by
  intro ref hmember
  rw [Member, (d.refreshMtu_sameTables mtu).peers] at hmember
  unfold refreshMtu
  dsimp only
  split
  · exact (h ref hmember).of_same rfl rfl rfl rfl
  · refine (h ref hmember).map
      (fun s => { s with amnezia := { s.amnezia with contentPaddingMtu := paddingMtu mtu } })
      ?_ ?_ (h ref hmember).limiter
    · rintro s hs
      obtain ⟨pair, hkey, rfl⟩ := Option.map_eq_some_iff.mp hs
      exact congrArg (Option.map _) hkey
    · dsimp only
      rw [@mapPeers_member _ { d with mtu := mtu } ref _ hmember]
      rfl

theorem openListenSocket_agreed (h : d.Agreed) (port : Nat) (bound : Except DeviceError Nat) :
    (d.openListenSocket port bound).2.Agreed := by
  intro ref hmember
  rw [Member, (d.openListenSocket_sameTables port bound).peers] at hmember
  unfold openListenSocket
  split
  · exact h ref hmember
  · split
    · exact h ref hmember
    · have htunnel : (d.mapPeers Peer.shutdownEndpoint ref).tunnel.settings =
          (d.peer ref).tunnel.settings := mapPeers_settings (f := Peer.shutdownEndpoint) (fun _ => rfl) ref
      exact (h ref hmember).of_same rfl rfl htunnel rfl

theorem setFwmark_agreed (h : d.Agreed) (mark : Nat) (marked : Except DeviceError Unit) :
    (d.setFwmark mark marked).2.Agreed := by
  intro ref hmember
  rw [Member, (d.setFwmark_sameTables mark marked).peers] at hmember
  cases marked with
  | error e => exact h ref hmember
  | ok => exact (h ref hmember).of_same rfl rfl rfl rfl

theorem removePeer_agreed (h : d.Agreed) (pubKey : P.Value) : (d.removePeer pubKey).Agreed := by
  unfold removePeer
  split
  · exact h
  · next ref hlookup =>
    rintro other ⟨key, hkey⟩
    have hmember : d.Member other := ⟨key, (Assoc.lookup_erase_eq_some.mp hkey).2⟩
    have hshutdown : (d.peer ref).shutdownEndpoint.tunnel.settings = (d.peer ref).tunnel.settings :=
      rfl
    exact (h other hmember).of_same rfl rfl (update_settings hshutdown other) rfl

theorem clearPeers_agreed (d : Interface P) : d.clearPeers.Agreed := by
  rintro ref ⟨key, hkey⟩
  exact absurd (hkey.symm.trans (AList.lookup_empty key)) nofun

theorem mergePeer_agreed (h : d.Agreed) (ref : PeerRef) (update : PeerUpdate P) :
    (d.mergePeer ref update).Agreed := by
  have htunnel := d.update_settings (settings_mergedPeer (d.peer ref) update)
  unfold mergePeer
  dsimp only
  split
  · exact fun other hmember => (h other hmember).of_same rfl rfl (htunnel other) rfl
  · exact fun other hmember => (h other hmember).of_same rfl rfl (htunnel other) rfl

/-- A new peer is built on the settings of the device. -/
theorem addPeer_agreed (hindexed : d.Indexed) (h : d.Agreed) {update : PeerUpdate P}
    {seed : TunnSeed P} {result : Except DeviceError Unit}
    (hadd : d.addPeer update seed = some (result, d')) : d'.Agreed := by
  cases addPeer_eq_some hadd with
  | refused hnext => exact fun ref hmember => (h ref hmember).of_same rfl rfl rfl rfl
  | @added index nextIndex privateKey publicKey tunnel hnext hkey htunnel =>
    rintro ref ⟨key, hlookup⟩
    rcases Assoc.lookup_insert_eq_some.mp hlookup with ⟨-, rfl⟩ | ⟨-, hold⟩
    · constructor
      · dsimp only [insertPeer, settings]
        rw [Function.update_self, hkey, newPeer, settings_withKeepalive]
        exact congrArg some (Tunn.settings_newWithObfuscation htunnel).symm
      · obtain ⟨limiter, hlimiter⟩ : ∃ limiter, d.rateLimiter = some limiter := by
          rw [← Option.isSome_iff_exists, d.limited, hkey]
          rfl
        dsimp only [insertPeer]
        rw [Function.update_self, hlimiter]
        rfl
    · have hne : ref ≠ d.nextRef := Nat.ne_of_lt (hindexed.allocated ⟨key, hold⟩)
      refine (h ref ⟨key, hold⟩).of_same rfl rfl ?_ ?_
      · dsimp only [insertPeer]
        rw [Function.update_of_ne hne]
      · dsimp only [insertPeer]
        rw [Function.update_of_ne hne]

/-- Every operation keeps the peers in agreement with the device. -/
theorem perform_agreed (hindexed : d.Indexed) (h : d.Agreed) {change : Change P}
    (hperform : d.perform change = some d') : d'.Agreed := by
  cases change with
  | setKey privateKey seed =>
    cases hperform
    exact setKey_agreed h privateKey seed
  | applyParams params =>
    cases hperform
    exact applyParams_agreed h params
  | refreshMtu mtu =>
    cases hperform
    exact refreshMtu_agreed h mtu
  | openListenSocket port bound =>
    cases hperform
    exact openListenSocket_agreed h port bound
  | setFwmark mark marked =>
    cases hperform
    exact setFwmark_agreed h mark marked
  | removePeer pubKey =>
    cases hperform
    exact removePeer_agreed h pubKey
  | clearPeers =>
    cases hperform
    exact d.clearPeers_agreed
  | updatePeer update seed =>
    obtain ⟨⟨result, _⟩, hupdate, rfl⟩ := Option.map_eq_some_iff.mp hperform
    unfold updatePeer at hupdate
    split at hupdate
    · cases hupdate
      exact removePeer_agreed h _
    · split at hupdate
      · cases hupdate
        exact mergePeer_agreed h _ update
      · exact addPeer_agreed hindexed h hupdate

end Interface

/-! ### Transactions -/

namespace Uapi

open Interface

def Performs (change : Change P) (d d' : Interface P) : Prop := d.perform change = some d'

/-- Some operations of the control plane. -/
def Changes (d d' : Interface P) : Prop := Steps Performs (fun _ => True) d d'

theorem Changes.refl (d : Interface P) : Changes d d := Steps.refl d

theorem Changes.single {d d' : Interface P} (change : Change P)
    (h : d.perform change = some d') : Changes d d' :=
  Steps.single h trivial

theorem Changes.trans {d d₁ d' : Interface P} (h : Changes d d₁) (h' : Changes d₁ d') :
    Changes d d' :=
  Steps.trans h h'

variable {d d' : Interface P} {os os' : Supply P}

theorem Staging.handle_changes (s : Staging P) (item : InterfaceItem P) :
    match s.handle item with
    | .ok s' => Changes s.device s'.device
    | .error out => Changes s.device out.2 := by
  cases item with
  | privateKey key => exact .single (.setKey key (s.os.limiter 0)) rfl
  | listenPort port =>
    have hchange : Changes s.device (s.device.openListenSocket port (s.os.bound 0)).2 :=
      .single (.openListenSocket port (s.os.bound 0)) rfl
    dsimp only [handle]
    rcases hopen : s.device.openListenSocket port (s.os.bound 0) with ⟨_ | _, device⟩
    · rwa [hopen] at hchange
    · rwa [hopen] at hchange
  | fwmark mark =>
    have hchange : Changes s.device (s.device.setFwmark mark (s.os.marked 0)).2 :=
      .single (.setFwmark mark (s.os.marked 0)) rfl
    dsimp only [handle]
    rcases hmark : s.device.setFwmark mark (s.os.marked 0) with ⟨_ | _, device⟩
    · rwa [hmark] at hchange
    · rwa [hmark] at hchange
  | replacePeers all =>
    cases all with
    | false => exact .refl _
    | true => exact .single .clearPeers rfl
  | _ => exact .refl _

theorem commitPeer_changes {pubKey : P.Value} {sec : PeerSection P} {result : Except Nat Unit}
    (h : commitPeer d os pubKey sec = some (result, d', os')) : Changes d d' := by
  unfold commitPeer at h
  split at h
  · cases h
    exact .refl d
  · have hchange {result : Except DeviceError Unit} {d' : Interface P}
        (hupdate : d.updatePeer (sec.update pubKey) (os.tunnel 0) = some (result, d')) :
        Changes d d' :=
      .single (.updatePeer (sec.update pubKey) (os.tunnel 0)) (congrArg (Option.map Prod.snd) hupdate)
    split at h
    · cases h
    · next hupdate =>
      cases h
      exact hchange hupdate
    · next hupdate =>
      cases h
      exact hchange hupdate

theorem applyParams_changes (d : Interface P) (params : AwgParams) :
    Changes d (d.applyParams params).2 :=
  .single (.applyParams params) rfl

variable {outside : Outside P} {lines : List Bytes} {status : Nat}

theorem finishPeer_changes {pubKey : P.Value} {sec : PeerSection P}
    (h : finishPeer d os pubKey sec = some (status, d')) : Changes d d' := by
  obtain ⟨⟨result, device, os'⟩, hcommit, hout⟩ := Option.map_eq_some_iff.mp h
  cases result with
  | error status | ok =>
    cases hout
    exact commitPeer_changes hcommit

theorem apiSetPeer_changes {pubKey : P.Value} {sec : PeerSection P}
    (h : apiSetPeer outside lines d os pubKey sec = some (status, d')) : Changes d d' := by
  induction lines generalizing d os pubKey sec with
  | nil => exact finishPeer_changes h
  | cons line rest ih =>
    unfold apiSetPeer at h
    split at h
    · cases h
      exact .refl _
    · exact finishPeer_changes h
    · split at h
      · cases h
      · cases h
        exact .refl _
      · exact ih h
      · split at h
        · cases h
        · next hcommit =>
          cases h
          exact commitPeer_changes hcommit
        · next hcommit =>
          have hchanges := commitPeer_changes hcommit
          split at h
          · cases h
          · cases h
            exact hchanges
          · exact hchanges.trans (ih h)

theorem finishStaging_changes (s : Staging P) : Changes s.device (finishStaging s).2 := by
  have hchange := applyParams_changes s.device s.params
  unfold finishStaging
  split
  · next hparams => rwa [hparams] at hchange
  · next hparams => rwa [hparams] at hchange

/-- A transaction is nothing but operations of the control plane. -/
theorem apiSetLines_changes {s : Staging P} (h : apiSetLines outside lines s = some (status, d')) :
    Changes s.device d' := by
  induction lines generalizing s with
  | nil =>
    have hfinish := finishStaging_changes s
    rwa [Option.some.inj h] at hfinish
  | cons line rest ih =>
    unfold apiSetLines at h
    split at h
    · cases h
      exact .refl _
    · have hfinish := finishStaging_changes s
      rwa [Option.some.inj h] at hfinish
    · split at h
      · cases h
      · cases h
        exact .refl _
      · next item hline =>
        have hchanges := s.handle_changes item
        split at h
        · next hitem =>
          cases h
          rw [hitem] at hchanges
          exact hchanges
        · next hitem =>
          rw [hitem] at hchanges
          exact hchanges.trans (ih h)
      · split at h
        · cases h
        · cases h
          exact .refl _
        · have hchanges := applyParams_changes s.device s.params
          split at h
          · next hparams =>
            cases h
            rwa [hparams] at hchanges
          · next hparams =>
            rw [hparams] at hchanges
            exact hchanges.trans (apiSetPeer_changes h)

/-! ### Runs -/

/-- What reconfigures a device: a transaction, or the monitor of the MTU. -/
inductive Event (P : Primitives) where
  | set (input : Bytes) (os : Supply P)
  | refreshMtu (mtu : Nat)

variable (outside) in
def Event.Step : Event P → Interface P → Interface P → Prop
  | .set input os, d, d' => ∃ status, apiSet outside input d os = some (status, d')
  | .refreshMtu mtu, d, d' => d' = d.refreshMtu mtu

theorem Event.Step.changes {event : Event P} (h : event.Step outside d d') : Changes d d' := by
  cases event with
  | set input os =>
    obtain ⟨status, h⟩ := h
    exact apiSetLines_changes h
  | refreshMtu mtu => exact .single (.refreshMtu mtu) (congrArg some h.symm)

/-- What every operation keeps, a run keeps. -/
theorem changes_of_trace {events : List (Event P)} (h : Trace (Event.Step outside) d events d') :
    Changes d d' := by
  induction h with
  | nil => exact .refl _
  | cons hfirst _ ih => exact hfirst.changes.trans ih

theorem Changes.agreed (h : Changes d d') (hnew : d.NoPeers) : d'.Indexed ∧ d'.Agreed := by
  have hstart : d.Indexed ∧ d.Agreed := by
    refine ⟨.of_empty hnew.peers hnew.byIdx, ?_⟩
    rintro ref ⟨key, hkey⟩
    rw [hnew.peers] at hkey
    exact absurd (hkey.symm.trans (AList.lookup_empty key)) nofun
  have hstep : ∀ (change : Change P) (d d' : Interface P), True → Performs change d d' →
      d.Indexed ∧ d.Agreed → d'.Indexed ∧ d'.Agreed := by
    rintro change d d' - hperform ⟨hindexed, hagreed⟩
    exact ⟨hindexed.reindexed (perform_reindexed hperform),
      perform_agreed hindexed hagreed hperform⟩
  have hsteps : Steps Performs (fun _ => True) d d' := h
  exact hsteps.invariant hstep hstart

/-- After any transactions and refreshes the peers of a device have its settings and its limiter,
and none refuses the configuration the device has, or the next one it installs. -/
theorem device_agreement {d₀ : Interface P} {events : List (Event P)} (hnew : d₀.NoPeers)
    (hrun : Trace (Event.Step outside) d₀ events d) (ref : PeerRef) (hmember : d.Member ref) :
    d.Agrees ref ∧
    (∃ t, (d.peer ref).tunnel.trySetObfuscation d.obf d.amnezia = .ok t) ∧
    ∀ params d', d.applyParams params = (.ok (), d') →
      ∃ t, (d.peer ref).tunnel.trySetObfuscation d'.obf d'.amnezia = .ok t := by
  have hagrees := ((changes_of_trace hrun).agreed hnew).2 ref hmember
  refine ⟨hagrees, ⟨_, Tunn.trySetObfuscation_checked _ _ hagrees.checked⟩, ?_⟩
  intro params d' happlied
  exact ⟨_, Tunn.trySetObfuscation_checked _ _ (applyParams_checked hagrees.checked happlied)⟩

/-! ### A run -/

/-- Transactions and refreshes, if none panics. -/
def runEvents (outside : Outside P) (d : Interface P) : List (Event P) → Option (Interface P)
  | [] => some d
  | .set input os :: rest => (apiSet outside input d os).bind fun out => runEvents outside out.2 rest
  | .refreshMtu mtu :: rest => runEvents outside (d.refreshMtu mtu) rest

theorem trace_runEvents {events : List (Event P)} (h : runEvents outside d events = some d') :
    Trace (Event.Step outside) d events d' := by
  induction events generalizing d with
  | nil =>
    cases h
    exact .nil _
  | cons event rest ih =>
    cases event with
    | set input os =>
      obtain ⟨⟨status, d₁⟩, hset, hrest⟩ := Option.bind_eq_some_iff.mp h
      exact .cons ⟨status, hset⟩ (ih hrest)
    | refreshMtu mtu => exact .cons rfl (ih h)

/-- A key and a peer, then an AmneziaWG key, then another MTU, and then another key. -/
def byteEvents : List (Event bytePrimitives) :=
  [.set (ascii ("private_key=" ++ String.join (List.replicate 32 "01") ++ "\npublic_key=" ++
      String.join (List.replicate 32 "06") ++ "\n\n")) byteSupply,
    .set (ascii "jc=5\n\n") byteSupply,
    .refreshMtu 1280,
    .set (ascii ("private_key=" ++ String.join (List.replicate 32 "02") ++ "\n\n")) byteSupply]

theorem device_agreement_byteEvents :
    ∃ d, runEvents byteOutside byteInterface byteEvents = some d ∧ d.Member 0 ∧ d.Agrees 0 ∧
      d.amnezia.preHandshakeJunk.packetCount = 5 ∧ d.amnezia.contentPaddingMtu = 1280 := by
  have hrun : (runEvents byteOutside byteInterface byteEvents).map (fun d =>
      (d.peers.lookup (6 : UInt8), d.amnezia.preHandshakeJunk.packetCount,
        d.amnezia.contentPaddingMtu)) = some (some 0, 5, 1280) := by
    decide +kernel
  obtain ⟨d, hevents, hout⟩ := Option.map_eq_some_iff.mp hrun
  obtain ⟨hpeer, hout⟩ := Prod.mk.inj hout
  obtain ⟨hcount, hmtu⟩ := Prod.mk.inj hout
  have hmember : d.Member 0 := ⟨_, hpeer⟩
  have hagrees := (device_agreement ⟨rfl, rfl, rfl⟩ (trace_runEvents hevents) 0 hmember).1
  exact ⟨d, hevents, hmember, hagrees, hcount, hmtu⟩

end Uapi

end BoringTun

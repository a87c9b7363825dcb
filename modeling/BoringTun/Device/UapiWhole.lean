import BoringTun.Device.PeerTables
import BoringTun.Device.Uapi

/-!
When a `set=1` transaction that reports success has done all it was asked to.

`Whole` is such a request, stated apart from the loops that read it: lines of the interface, each
understood and acted on, and peer sections, each committed in turn. `Takes` is what one accepted
line does to a transaction; `success_whole_iff` says that success is whole unless the transaction
comes to a line that is no text, where the loops end as if the request did.
-/

namespace BoringTun.Uapi

open Text

variable {P : Primitives}

/-! ### What a request asks for -/

/-- The last value some item gives. -/
def lastOf {α β : Type*} (f : α → Option β) (items : List α) : Option β :=
  items.reverse.findSome? f

theorem lastOf_concat {α β : Type*} (f : α → Option β) (items : List α) (item : α) :
    lastOf f (items ++ [item]) = (f item).or (lastOf f items) := by
  unfold lastOf
  rw [List.reverse_concat, List.findSome?_cons]
  cases f item with
  | none => rfl
  | some value => rfl

namespace InterfaceItem

def sizeAt (key : SizeKey) : InterfaceItem P → Option Nat
  | size key' value => if key' = key then some value else none
  | _ => none

def headerAt (key : HeaderKey) : InterfaceItem P → Option (Nat × Nat)
  | header key' range => if key' = key then some range else none
  | _ => none

def timerAt (key : TimerKey) : InterfaceItem P → Option (Nat × Nat)
  | timer key' range => if key' = key then some range else none
  | _ => none

def headerProtectionValue : InterfaceItem P → Option Bytes
  | headerProtection key => some key
  | _ => none

def contentPaddingValue : InterfaceItem P → Option (Nat × Nat)
  | contentPadding range => some range
  | _ => none

def randomTrailersValue : InterfaceItem P → Option Bool
  | randomTrailers on => some on
  | _ => none

def disableCookiesValue : InterfaceItem P → Option Bool
  | disableCookies on => some on
  | _ => none

def isAwg : InterfaceItem P → Bool
  | size _ _ | header _ _ | timer _ _ => true
  | headerProtection _ | contentPadding _ | randomTrailers _ | disableCookies _ => true
  | _ => false

end InterfaceItem

open InterfaceItem in
/-- The AmneziaWG keys of a request, the last value of each. -/
def carried (items : List (InterfaceItem P)) : AwgParams where
  jc := lastOf (sizeAt .jc) items
  jmin := lastOf (sizeAt .jmin) items
  jmax := lastOf (sizeAt .jmax) items
  s1 := lastOf (sizeAt .s1) items
  s2 := lastOf (sizeAt .s2) items
  s3 := lastOf (sizeAt .s3) items
  s4 := lastOf (sizeAt .s4) items
  h1 := lastOf (headerAt .h1) items
  h2 := lastOf (headerAt .h2) items
  h3 := lastOf (headerAt .h3) items
  h4 := lastOf (headerAt .h4) items
  headerProtection := lastOf headerProtectionValue items
  contentPadding := lastOf contentPaddingValue items
  rekeyAfterTime := lastOf (timerAt .rekeyAfterTime) items
  rekeyTimeout := lastOf (timerAt .rekeyTimeout) items
  rejectAfterTime := lastOf (timerAt .rejectAfterTime) items
  keepaliveTimeout := lastOf (timerAt .keepaliveTimeout) items
  maxHandshakeAttempts := lastOf (timerAt .maxHandshakeAttempts) items
  randomTrailers := lastOf randomTrailersValue items
  disableCookies := lastOf disableCookiesValue items
  seen := items.any isAwg

/-- A line is text, and is understood as an item. -/
def ReadAs {α : Type*} (understand : Bytes → Line α) (line : Bytes) (item : α) : Prop :=
  ∃ cmd, readLine line = some cmd ∧ understand cmd = .item item

/-- A line is text, and begins the section of a peer. -/
def Names (outside : Outside P) (line : Bytes) (pubKey : P.Value) : Prop :=
  ∃ cmd value key, readLine line = some cmd ∧
    splitOnce 61 cmd = some (ascii "public_key", value) ∧ keyBytes outside.base64 value = .as key ∧
    pubKey = P.value key

/-- Every item is acted on, in order. -/
inductive Handles : Staging P → List (InterfaceItem P) → Staging P → Prop where
  | nil (s : Staging P) : Handles s [] s
  | cons {s s' s'' : Staging P} {item : InterfaceItem P} {items : List (InterfaceItem P)}
    (hitem : s.handle item = .ok s') (hrest : Handles s' items s'') : Handles s (item :: items) s''

/-- AmneziaWG keys are merged with the settings of a device, which has the result after. -/
def Installed (params : AwgParams) (d d' : Interface P) : Prop :=
  if params.seen then
    ∃ obf amnezia, params.merged d.obf d.amnezia (Interface.paddingMtu d.mtu) = .ok (obf, amnezia) ∧
      d' = (d.setObfuscation obf amnezia).2 ∧ d'.obf = obf ∧ d'.amnezia = amnezia
  else d' = d

/-- A section is applied; one that only updates is ignored if its peer is not there. -/
inductive Committed (d : Interface P) (os : Supply P) (pubKey : P.Value) (sec : PeerSection P) :
    Interface P → Supply P → Prop where
  | ignored (honly : sec.updateOnly = true) (hunknown : d.peers.lookup pubKey = none) :
    Committed d os pubKey sec d os
  | applied {d' : Interface P}
    (hmeant : sec.updateOnly = true → d.peers.lookup pubKey ≠ none)
    (hupdate : d.updatePeer (sec.update pubKey) (os.tunnel 0) = some (.ok (), d')) :
    Committed d os pubKey sec d' os.next

variable (outside : Outside P)

/-- Sections, each the line that names its peer and its other lines, are committed in order. -/
inductive Commits : Interface P → Supply P → List (Bytes × List Bytes) → Interface P → Prop where
  | nil (d : Interface P) (os : Supply P) : Commits d os [] d
  | cons {d d₁ d' : Interface P} {os os₁ : Supply P} {head : Bytes} {body : List Bytes}
    {pubKey : P.Value} {items : List PeerItem} {sections : List (Bytes × List Bytes)}
    (hhead : Names outside head pubKey) (hbody : List.Forall₂ (ReadAs (peerLine outside)) body items)
    (hcommit : Committed d os pubKey (items.foldl PeerSection.fill {}) d₁ os₁)
    (hrest : Commits d₁ os₁ sections d') : Commits d os ((head, body) :: sections) d'

/-- The lines of sections. -/
def sectionLines (sections : List (Bytes × List Bytes)) : List Bytes :=
  sections.flatMap fun sec => sec.1 :: sec.2

/-- All of a request is done. -/
inductive Whole (lines : List Bytes) (d : Interface P) (os : Supply P) (d' : Interface P) : Prop
    where
  | intro {own : List Bytes} {items : List (InterfaceItem P)} {sections : List (Bytes × List Bytes)}
    {s : Staging P} {d₁ : Interface P} (hlines : lines = own ++ sectionLines sections)
    (hread : List.Forall₂ (ReadAs (interfaceLine outside)) own items)
    (hhandled : Handles ⟨d, {}, os⟩ items s) (hinstalled : Installed (carried items) s.device d₁)
    (hcommitted : Commits outside d₁ s.os sections d')

/-! ### Line by line -/

/-- Where a transaction is between two lines: before its first section, or in one. -/
inductive Position (P : Primitives) where
  | own (s : Staging P)
  | peer (d : Interface P) (os : Supply P) (pubKey : P.Value) (sec : PeerSection P)

def Position.device : Position P → Interface P
  | own s => s.device
  | peer d _ _ _ => d

/-- What an accepted line does. -/
inductive Takes : Bytes → Position P → Position P → Prop where
  | item {line : Bytes} {s s' : Staging P} {item : InterfaceItem P}
    (hline : ReadAs (interfaceLine outside) line item) (hitem : s.handle item = .ok s') :
    Takes line (.own s) (.own s')
  | first {line : Bytes} {s : Staging P} {d : Interface P} {pubKey : P.Value}
    (hline : Names outside line pubKey) (hparams : s.device.applyParams s.params = (.ok (), d)) :
    Takes line (.own s) (.peer d s.os pubKey {})
  | fill {line : Bytes} {d : Interface P} {os : Supply P} {pubKey : P.Value} {sec : PeerSection P}
    {item : PeerItem} (hline : ReadAs (peerLine outside) line item) :
    Takes line (.peer d os pubKey sec) (.peer d os pubKey (sec.fill item))
  | next {line : Bytes} {d d' : Interface P} {os os' : Supply P} {pubKey pubKey' : P.Value}
    {sec : PeerSection P} (hline : Names outside line pubKey')
    (hcommit : Committed d os pubKey sec d' os') :
    Takes line (.peer d os pubKey sec) (.peer d' os' pubKey' {})

/-- The end of a request. -/
inductive Finishes : Position P → Interface P → Prop where
  | own {s : Staging P} {d : Interface P}
    (hparams : s.device.applyParams s.params = (.ok (), d)) : Finishes (.own s) d
  | peer {d d' : Interface P} {os os' : Supply P} {pubKey : P.Value} {sec : PeerSection P}
    (hcommit : Committed d os pubKey sec d' os') : Finishes (.peer d os pubKey sec) d'

/-- The loop a transaction is in, on the lines to come. -/
def resume : Position P → List Bytes → Option (Nat × Interface P)
  | .own s, lines => apiSetLines outside lines s
  | .peer d os pubKey sec, lines => apiSetPeer outside lines d os pubKey sec

theorem commitPeer_eq_ok {d d' : Interface P} {os os' : Supply P} {pubKey : P.Value}
    {sec : PeerSection P} :
    commitPeer d os pubKey sec = some (.ok (), d', os') ↔ Committed d os pubKey sec d' os' := by
  unfold commitPeer
  constructor
  · intro h
    split at h
    · next hignored =>
      cases h
      obtain ⟨honly, hunknown⟩ := Bool.and_eq_true_iff.mp hignored
      exact .ignored honly (Option.isNone_iff_eq_none.mp hunknown)
    · next hmeant =>
      split at h
      · cases h
      · cases h
      · next hupdate =>
        cases h
        refine .applied ?_ hupdate
        intro honly hunknown
        rw [honly, hunknown] at hmeant
        exact hmeant rfl
  · intro h
    cases h with
    | ignored honly hunknown => rw [honly, hunknown]; rfl
    | applied hmeant hupdate =>
      rw [if_neg, hupdate]
      intro hignored
      obtain ⟨honly, hunknown⟩ := Bool.and_eq_true_iff.mp hignored
      exact hmeant honly (Option.isNone_iff_eq_none.mp hunknown)

theorem commitPeer_eq_error {d d' : Interface P} {os os' : Supply P} {pubKey : P.Value}
    {sec : PeerSection P} {status : Nat}
    (h : commitPeer d os pubKey sec = some (.error status, d', os')) : status ≠ 0 := by
  unfold commitPeer at h
  split at h
  · cases h
  · split at h
    · cases h
    · cases h
      decide
    · cases h

theorem classifyLine_publicKey {κ α : Type*} {table : List (String × κ)}
    {understand : Bytes → κ → Understood α} {cmd value : Bytes} :
    classifyLine table understand cmd = .publicKey value ↔
      splitOnce 61 cmd = some (ascii "public_key", value) := by
  unfold classifyLine
  constructor
  · intro h
    split at h
    · cases h
    next key value' hsplit =>
    split at h
    · next hkey =>
      cases h
      rw [hsplit, hkey]
    · split at h
      · cases h
      · next key hkeyed =>
        cases hvalue : understand value' key with
        | as item | refused | panicked => rw [hvalue] at h; cases h
  · intro h
    rw [h]
    exact if_pos rfl

theorem classifyLine_refused {κ α : Type*} {table : List (String × κ)}
    {understand : Bytes → κ → Understood α} {cmd : Bytes} {status : Nat}
    (h : classifyLine table understand cmd = .refused status) : status ≠ 0 := by
  unfold classifyLine at h
  split at h
  · cases h
    decide
  next key value hsplit =>
  split at h
  · cases h
  · split at h
    · cases h
      decide
    · next key hkeyed =>
      cases hvalue : understand value key with
      | as item | panicked => rw [hvalue] at h; cases h
      | refused => rw [hvalue] at h; cases h; decide

theorem deviceErrno_ne_zero (e : DeviceError) : deviceErrno e ≠ 0 := by
  cases e with
  | peerSetup message => exact (by decide : EIO_CODE ≠ 0)
  | system errno =>
    cases errno with
    | none => decide
    | some errno =>
      simp only [deviceErrno]
      split
      · omega
      · decide

theorem Staging.handle_error {s : Staging P} {item : InterfaceItem P} {status : Nat}
    {d : Interface P} (h : s.handle item = .error (status, d)) : status ≠ 0 := by
  cases item with
  | listenPort port | fwmark mark =>
    unfold handle at h
    dsimp only at h
    split at h
    · cases h
    · cases h
      exact deviceErrno_ne_zero _
  | _ => cases h

theorem applyParams_eq_ok {params : AwgParams} {d d' : Interface P} :
    d.applyParams params = (.ok (), d') ↔ Installed params d d' := by
  unfold Interface.applyParams Installed
  cases hseen : params.seen with
  | false =>
    simp only [Bool.not_false, if_true, Prod.mk.injEq, true_and]
    exact eq_comm
  | true =>
    simp only [Bool.not_true, Bool.false_eq_true, if_false, if_true]
    cases hmerged : params.merged d.obf d.amnezia (Interface.paddingMtu d.mtu) with
    | error e => simp
    | ok merged =>
      simp only [Prod.mk.injEq, true_and, Except.ok.injEq]
      constructor
      · rintro rfl
        exact ⟨_, _, rfl, rfl, Interface.setObfuscation_obf .., Interface.setObfuscation_amnezia ..⟩
      · rintro ⟨obf, amnezia, rfl, hd', -, -⟩
        exact hd'.symm

theorem applyParams_eq_error {params : AwgParams} {d d' : Interface P} {status : Nat}
    (h : d.applyParams params = (.error status, d')) : status ≠ 0 := by
  unfold Interface.applyParams at h
  split at h
  · cases h
  · split at h
    · next hmerged =>
      cases h
      rw [AwgParams.merged_error hmerged]
      decide
    · cases h

section Loops

variable {outside} {line : Bytes} {rest : List Bytes} {p p' : Position P} {d' : Interface P}

/-- The loops go on after a line they accept. -/
theorem Takes.resume (h : Takes outside line p p') :
    resume outside p (line :: rest) = resume outside p' rest := by
  cases h with
  | item hline hitem =>
    obtain ⟨cmd, hread, hline⟩ := hline
    cases cmd with
    | nil => cases hline
    | cons b cmd => simp only [Uapi.resume, apiSetLines, hread, hline, hitem]
  | first hline hparams =>
    obtain ⟨cmd, value, key, hread, hsplit, hkey, rfl⟩ := hline
    have hline : interfaceLine outside cmd = .publicKey value := classifyLine_publicKey.mpr hsplit
    cases cmd with
    | nil => cases hsplit
    | cons b cmd => simp only [Uapi.resume, apiSetLines, hread, hline, hkey, hparams]
  | fill hline =>
    obtain ⟨cmd, hread, hline⟩ := hline
    cases cmd with
    | nil => cases hline
    | cons b cmd => simp only [Uapi.resume, apiSetPeer, hread, hline]
  | next hline hcommit =>
    obtain ⟨cmd, value, key, hread, hsplit, hkey, rfl⟩ := hline
    have hline : peerLine outside cmd = .publicKey value := classifyLine_publicKey.mpr hsplit
    rw [← commitPeer_eq_ok] at hcommit
    cases cmd with
    | nil => cases hsplit
    | cons b cmd => simp only [Uapi.resume, apiSetPeer, hread, hline, hcommit, hkey]

theorem resume_append {before : List Bytes} (h : Trace (Takes outside) p before p') :
    resume outside p (before ++ rest) = resume outside p' rest := by
  induction h with
  | nil => rfl
  | cons hfirst _ ih => exact hfirst.resume.trans ih

/-- A line that is no text ends them, with success. -/
theorem resume_unreadable (hread : readLine line = none) :
    resume outside p (line :: rest) = some (0, p.device) := by
  cases p with
  | own s => simp only [resume, apiSetLines, hread, Position.device]
  | peer d os pubKey sec => simp only [resume, apiSetPeer, hread, Position.device]

/-- There is no other way to succeed. -/
theorem resume_success (hblank : readLine line ≠ some [])
    (h : resume outside p (line :: rest) = some (0, d')) :
    readLine line = none ∨ ∃ p', Takes outside line p p' ∧ resume outside p' rest = some (0, d') := by
  cases hread : readLine line with
  | none => exact .inl rfl
  | some cmd =>
  right
  cases cmd with
  | nil => exact absurd hread hblank
  | cons b cmd =>
  cases p with
  | own s =>
    simp only [resume, apiSetLines, hread] at h
    cases hline : interfaceLine outside (b :: cmd) with
    | panicked => simp only [hline] at h; cases h
    | refused status =>
      simp only [hline, Option.some.injEq, Prod.mk.injEq] at h
      exact absurd h.1 (classifyLine_refused hline)
    | item item =>
      simp only [hline] at h
      cases hitem : s.handle item with
      | error out =>
        simp only [hitem, Option.some.injEq] at h
        subst h
        exact absurd rfl (Staging.handle_error hitem)
      | ok s' =>
        simp only [hitem] at h
        exact ⟨.own s', .item ⟨_, hread, hline⟩ hitem, h⟩
    | publicKey value =>
      simp only [hline] at h
      cases hkey : keyBytes outside.base64 value with
      | panicked => simp only [hkey] at h; cases h
      | refused =>
        simp only [hkey, Option.some.injEq, Prod.mk.injEq] at h
        exact absurd h.1 (by decide)
      | as key =>
        simp only [hkey] at h
        have hname : Names outside line (P.value key) :=
          ⟨_, value, key, hread, classifyLine_publicKey.mp hline, hkey, rfl⟩
        rcases hparams : s.device.applyParams s.params with ⟨_ | _, d⟩
        · simp only [hparams, Option.some.injEq, Prod.mk.injEq] at h
          exact absurd h.1 (applyParams_eq_error hparams)
        · simp only [hparams] at h
          exact ⟨.peer d s.os (P.value key) {}, .first hname hparams, h⟩
  | peer d os pubKey sec =>
    simp only [resume, apiSetPeer, hread] at h
    cases hline : peerLine outside (b :: cmd) with
    | panicked => simp only [hline] at h; cases h
    | refused status =>
      simp only [hline, Option.some.injEq, Prod.mk.injEq] at h
      exact absurd h.1 (classifyLine_refused hline)
    | item item =>
      simp only [hline] at h
      exact ⟨.peer d os pubKey (sec.fill item), .fill ⟨_, hread, hline⟩, h⟩
    | publicKey value =>
      simp only [hline] at h
      rcases hcommit : commitPeer d os pubKey sec with _ | ⟨_ | _, d₁, os₁⟩
      · simp only [hcommit] at h; cases h
      · simp only [hcommit, Option.some.injEq, Prod.mk.injEq] at h
        exact absurd h.1 (commitPeer_eq_error hcommit)
      · simp only [hcommit] at h
        cases hkey : keyBytes outside.base64 value with
        | panicked => simp only [hkey] at h; cases h
        | refused =>
          simp only [hkey, Option.some.injEq, Prod.mk.injEq] at h
          exact absurd h.1 (by decide)
        | as key =>
          simp only [hkey] at h
          have hname : Names outside line (P.value key) :=
            ⟨_, value, key, hread, classifyLine_publicKey.mp hline, hkey, rfl⟩
          exact ⟨.peer d₁ os₁ (P.value key) {}, .next hname (commitPeer_eq_ok.mp hcommit), h⟩

/-- At the blank line they finish. -/
theorem resume_blank (h : resume outside p [[NEWLINE]] = some (0, d')) : Finishes p d' := by
  have hread : readLine [NEWLINE] = some [] := by decide
  cases p with
  | own s =>
    simp only [resume, apiSetLines, hread, finishStaging] at h
    rcases hparams : s.device.applyParams s.params with ⟨_ | _, d⟩
    · rw [hparams] at h
      cases h
      exact absurd rfl (applyParams_eq_error hparams)
    · rw [hparams] at h
      cases h
      exact .own hparams
  | peer d os pubKey sec =>
    simp only [resume, apiSetPeer, hread, finishPeer] at h
    rcases hcommit : commitPeer d os pubKey sec with _ | ⟨_ | _, d₁, os₁⟩
    · rw [hcommit] at h
      cases h
    · rw [hcommit] at h
      cases h
      exact absurd rfl (commitPeer_eq_error hcommit)
    · rw [hcommit] at h
      cases h
      exact .peer (commitPeer_eq_ok.mp hcommit)

end Loops

/-! ### From the lines to the request -/

/-- What an item adds to what is staged. -/
def stage (params : AwgParams) : InterfaceItem P → AwgParams
  | .size key value => params.setSize key value
  | .header key range => params.setHeader key range
  | .contentPadding range => params.setContentPadding range
  | .randomTrailers on => params.setRandomTrailers on
  | .disableCookies on => params.setDisableCookies on
  | .headerProtection key => params.setHeaderProtection key
  | .timer key range => params.setTimer key range
  | _ => params

theorem Staging.handle_params {s s' : Staging P} {item : InterfaceItem P}
    (h : s.handle item = .ok s') : s'.params = stage s.params item := by
  cases item with
  | listenPort port | fwmark mark =>
    unfold handle at h
    dsimp only at h
    split at h
    · cases h
      rfl
    · cases h
  | replacePeers all =>
    cases h
    cases all with
    | false => rfl
    | true => rfl
  | _ =>
    cases h
    rfl

/-- Staging keeps the last value of each key. -/
theorem carried_concat (items : List (InterfaceItem P)) (item : InterfaceItem P) :
    carried (items ++ [item]) = stage (carried items) item := by
  simp only [carried, lastOf_concat, List.any_append, List.any_cons, List.any_nil, Bool.or_false]
  cases item with
  | size key value | header key range | timer key range =>
    simp only [InterfaceItem.isAwg, Bool.or_true]
    cases key <;> rfl
  | contentPadding | randomTrailers | disableCookies | headerProtection =>
    simp only [InterfaceItem.isAwg, Bool.or_true]
    rfl
  | privateKey | listenPort | fwmark | replacePeers | signature =>
    simp only [InterfaceItem.isAwg, Bool.or_false]
    rfl

/-- So handling items stages what they carry. -/
theorem Handles.params {s s' : Staging P} {items earlier : List (InterfaceItem P)}
    (h : Handles s items s') (hs : s.params = carried earlier) :
    s'.params = carried (earlier ++ items) := by
  induction h generalizing earlier with
  | nil => rwa [List.append_nil]
  | @cons s s' s'' item items hitem _ ih =>
    have hs' : s'.params = carried (earlier ++ [item]) := by
      rw [Staging.handle_params hitem, hs, carried_concat]
    rw [List.append_cons]
    exact ih hs'

section Requests

variable {outside} {lines : List Bytes} {p : Position P} {d d' : Interface P} {os : Supply P}

/-- The rest of a section and the sections after it. -/
theorem commits_of_trace {pubKey : P.Value} {sec : PeerSection P}
    (h : Trace (Takes outside) (.peer d os pubKey sec) lines p) (hfinish : Finishes p d') :
    ∃ body items sections d₁ os₁, lines = body ++ sectionLines sections ∧
      List.Forall₂ (ReadAs (peerLine outside)) body items ∧
      Committed d os pubKey (items.foldl PeerSection.fill sec) d₁ os₁ ∧
      Commits outside d₁ os₁ sections d' := by
  induction lines generalizing d os pubKey sec with
  | nil =>
    cases h
    cases hfinish with
    | peer hcommit => exact ⟨[], [], [], _, _, rfl, .nil, hcommit, .nil _ _⟩
  | cons line lines ih =>
    cases h with
    | cons hfirst hrest =>
    cases hfirst with
    | fill hline =>
      obtain ⟨body, items, sections, d₁, os₁, rfl, hbody, hcommit, hsections⟩ := ih hrest
      exact ⟨line :: body, _ :: items, sections, d₁, os₁, rfl, .cons hline hbody, hcommit,
        hsections⟩
    | next hline hcommit =>
      obtain ⟨body, items, sections, d₁, os₁, rfl, hbody, hnext, hsections⟩ := ih hrest
      exact ⟨[], [], (line, body) :: sections, _, _, rfl, .nil, hcommit,
        .cons hline hbody hnext hsections⟩

theorem whole_of_trace {s : Staging P} (h : Trace (Takes outside) (.own s) lines p)
    (hfinish : Finishes p d') :
    ∃ own items sections s' d₁, lines = own ++ sectionLines sections ∧
      List.Forall₂ (ReadAs (interfaceLine outside)) own items ∧ Handles s items s' ∧
      Installed s'.params s'.device d₁ ∧ Commits outside d₁ s'.os sections d' := by
  induction lines generalizing s with
  | nil =>
    cases h
    cases hfinish with
    | own hparams =>
      exact ⟨[], [], [], s, _, rfl, .nil, .nil s, applyParams_eq_ok.mp hparams, .nil _ _⟩
  | cons line lines ih =>
    cases h with
    | cons hfirst hrest =>
    cases hfirst with
    | item hline hitem =>
      obtain ⟨own, items, sections, s', d₁, rfl, hown, hhandles, hinstalled, hsections⟩ := ih hrest
      exact ⟨line :: own, _ :: items, sections, s', d₁, rfl, .cons hline hown,
        .cons hitem hhandles, hinstalled, hsections⟩
    | first hline hparams =>
      obtain ⟨body, items, sections, d₁, os₁, rfl, hbody, hcommit, hsections⟩ :=
        commits_of_trace hrest hfinish
      exact ⟨[], [], (line, body) :: sections, s, _, rfl, .nil, .nil s,
        applyParams_eq_ok.mp hparams, .cons hline hbody hcommit hsections⟩

theorem readable_of_items {α : Type*} {understand : Bytes → Line α} {items : List α}
    (h : List.Forall₂ (ReadAs understand) lines items) : ∀ line ∈ lines, readLine line ≠ none := by
  induction h with
  | nil => nofun
  | cons hfirst _ ih =>
    obtain ⟨cmd, hread, -⟩ := hfirst
    refine List.forall_mem_cons.mpr ⟨?_, ih⟩
    rw [hread]
    exact Option.some_ne_none cmd

theorem Commits.readable {sections : List (Bytes × List Bytes)}
    (h : Commits outside d os sections d') :
    ∀ line ∈ sectionLines sections, readLine line ≠ none := by
  induction h with
  | nil => nofun
  | cons hhead hbody _ _ ih =>
    obtain ⟨cmd, value, key, hread, -⟩ := hhead
    refine List.forall_mem_append.mpr ⟨List.forall_mem_cons.mpr ⟨?_, readable_of_items hbody⟩, ih⟩
    rw [hread]
    exact Option.some_ne_none cmd

/-- A whole request is text in every line. -/
theorem Whole.readable (h : Whole outside lines d os d') :
    ∀ line ∈ lines, readLine line ≠ none := by
  obtain ⟨rfl, hread, -, -, hcommitted⟩ := h
  exact List.forall_mem_append.mpr ⟨readable_of_items hread, hcommitted.readable⟩

/-- Success is that of every line and of the end, or there is a line that is no text. -/
theorem resume_cases (hblank : ∀ line ∈ lines, readLine line ≠ some [])
    (h : resume outside p (lines ++ [[NEWLINE]]) = some (0, d')) :
    (∃ p', Trace (Takes outside) p lines p' ∧ Finishes p' d') ∨
      ∃ before line after p', lines = before ++ line :: after ∧
        Trace (Takes outside) p before p' ∧ readLine line = none := by
  induction lines generalizing p with
  | nil => exact .inl ⟨p, .nil p, resume_blank h⟩
  | cons line lines ih =>
    obtain ⟨hline, hlines⟩ := List.forall_mem_cons.mp hblank
    rcases resume_success hline h with hread | ⟨p₁, hfirst, h⟩
    · exact .inr ⟨[], line, lines, p, rfl, .nil p, hread⟩
    · rcases ih hlines h with ⟨p', hrest, hfinish⟩ | ⟨before, bad, after, p', rfl, hrest, hread⟩
      · exact .inl ⟨p', .cons hfirst hrest, hfinish⟩
      · exact .inr ⟨line :: before, bad, after, p', rfl, .cons hfirst hrest, hread⟩

end Requests

/-! ### Frames -/

/-- The lines of a frame after the first and before the blank one. -/
def requestLines (frame : Bytes) : List Bytes := (lines (frame.drop 6)).dropLast

/-- Lines that are not blank, and a blank one. -/
def Paragraph (pieces : List Bytes) : Prop :=
  ∃ before, pieces = before ++ [[NEWLINE]] ∧
    ∀ line ∈ before, ∃ text, text ≠ [] ∧ line = text ++ [NEWLINE]

/-- A text that ends at its first blank line, where the search begins with what came before. -/
theorem lines_of_cut {c : UInt8} {text : Bytes}
    (h : cut isBlankLine (c :: text) = some (text.length + 1)) :
    (c = NEWLINE → Paragraph (lines text)) ∧
      (c ≠ NEWLINE → ∃ line rest, lines text = (line ++ [NEWLINE]) :: rest ∧ Paragraph rest) := by
  induction text generalizing c with
  | nil => cases h
  | cons b text ih =>
    rw [cut_cons_cons] at h
    by_cases hends : isBlankLine c b
    · rw [if_pos hends] at h
      obtain ⟨hc, hb⟩ := Bool.and_eq_true_iff.mp hends
      have htext : text = [] := by
        apply List.eq_nil_of_length_eq_zero
        have hlength := Option.some.inj h
        rw [List.length_cons] at hlength
        omega
      subst htext
      rw [eq_of_beq hb]
      exact ⟨fun _ => ⟨[], rfl, nofun⟩, fun hne => absurd (eq_of_beq hc) hne⟩
    · rw [if_neg hends] at h
      have hnext : cut isBlankLine (b :: text) = some (text.length + 1) := by
        obtain ⟨n, hn, hlength⟩ := Option.map_eq_some_iff.mp h
        rw [hn, Nat.succ.inj hlength]
        rfl
      obtain ⟨hnewline, hother⟩ := ih hnext
      by_cases hb : b = NEWLINE
      · subst hb
        have hlines : lines (NEWLINE :: text) = ([] ++ [NEWLINE]) :: lines text := by
          rw [lines, if_pos rfl]
          rfl
        refine ⟨fun hc => ?_, fun _ => ⟨[], lines text, hlines, hnewline rfl⟩⟩
        subst hc
        exact absurd rfl hends
      · obtain ⟨line, rest, hline, hrest⟩ := hother hb
        have hlines : lines (b :: text) = (b :: line ++ [NEWLINE]) :: rest := by
          rw [lines, if_neg hb, hline]
          rfl
        refine ⟨fun _ => ?_, fun _ => ⟨b :: line, rest, hlines, hrest⟩⟩
        obtain ⟨before, rfl, hbefore⟩ := hrest
        refine ⟨(b :: line ++ [NEWLINE]) :: before, hlines, ?_⟩
        exact List.forall_mem_cons.mpr ⟨⟨b :: line, List.cons_ne_nil _ _, rfl⟩, hbefore⟩

theorem requestLines_spec {frame : Bytes} (hset : ascii "set=1\n" <+: frame)
    (hframe : cut isBlankLine frame = some frame.length) :
    lines (frame.drop 6) = requestLines frame ++ [[NEWLINE]] ∧
      ∀ line ∈ requestLines frame, readLine line ≠ some [] := by
  obtain ⟨text, rfl⟩ := hset
  have hcut : cut isBlankLine (NEWLINE :: text) = some (text.length + 1) := by
    change cut isBlankLine (115 :: 101 :: 116 :: 61 :: 49 :: NEWLINE :: text) =
      some (text.length + 6) at hframe
    simpa [cut_cons_cons, show isBlankLine 115 101 = false from rfl,
      show isBlankLine 101 116 = false from rfl, show isBlankLine 116 61 = false from rfl,
      show isBlankLine 61 49 = false from rfl, show isBlankLine 49 NEWLINE = false from rfl,
      Option.map_map] using hframe
  obtain ⟨before, hlines, hbefore⟩ := (lines_of_cut hcut).1 rfl
  have hrequest : requestLines (ascii "set=1\n" ++ text) = before := by
    change (lines text).dropLast = before
    rw [hlines, List.dropLast_concat]
  rw [hrequest]
  refine ⟨hlines, fun line hline hread => ?_⟩
  obtain ⟨text, hne, rfl⟩ := hbefore line hline
  unfold readLine at hread
  split at hread
  · rw [popChar_newline] at hread
    exact hne (Option.some.inj hread)
  · cases hread

/-! ### The result -/

/-- A transaction comes to a line that is no text: the lines before it are all accepted. -/
def Undecodable (outside : Outside P) (lines : List Bytes) (d : Interface P) (os : Supply P) :
    Prop :=
  ∃ before line after p, lines = before ++ line :: after ∧
    Trace (Takes outside) (.own ⟨d, {}, os⟩) before p ∧ validUtf8 line = false

/-- A success is a whole one unless the transaction comes to a line that is no text. -/
theorem success_whole_iff (outside : Outside P) {frame : Bytes} (d : Interface P) (os : Supply P)
    (hset : ascii "set=1\n" <+: frame) (hframe : cut isBlankLine frame = some frame.length) :
    (∀ d', apiSet outside (frame.drop 6) d os = some (0, d') →
        Whole outside (requestLines frame) d os d') ↔
      ¬Undecodable outside (requestLines frame) d os := by
  obtain ⟨hlines, hblank⟩ := requestLines_spec hset hframe
  have hread (line : Bytes) : validUtf8 line = false ↔ readLine line = none := by
    unfold readLine
    cases validUtf8 line <;> simp
  have hset (d' : Interface P) : apiSet outside (frame.drop 6) d os = some (0, d') ↔
      resume outside (.own ⟨d, {}, os⟩) (requestLines frame ++ [[NEWLINE]]) = some (0, d') := by
    rw [← hlines]
    rfl
  constructor
  · rintro hwhole ⟨before, line, after, p, hsplit, htrace, hline⟩
    have hsuccess := hwhole p.device ((hset _).mpr (by
      rw [hsplit, List.append_assoc, List.cons_append, resume_append htrace,
        resume_unreadable ((hread line).mp hline)]))
    exact hsuccess.readable line (by simp [hsplit]) ((hread line).mp hline)
  · intro hdecodable d' hsuccess
    rcases resume_cases hblank ((hset d').mp hsuccess) with
      ⟨p, htrace, hfinish⟩ | ⟨before, line, after, p, hsplit, htrace, hline⟩
    · obtain ⟨own, items, sections, s, d₁, hsplit, hown, hhandled, hinstalled, hcommitted⟩ :=
        whole_of_trace htrace hfinish
      have hparams : s.params = carried ([] ++ items) := hhandled.params rfl
      exact ⟨hsplit, hown, hhandled, hparams ▸ hinstalled, hcommitted⟩
    · exact absurd ⟨before, line, after, p, hsplit, htrace, (hread line).mpr hline⟩ hdecodable

/-! ### Two frames -/

def byteOutside : Outside bytePrimitives where
  ipAddr _ := none
  socketAddr _ := none
  base64 _ := none
  secret bytes := bytes.headD 0

def byteSupply : Supply bytePrimitives where
  tunnel _ := byteSeed
  limiter _ := byteSeed.limiter
  bound _ := .ok 51820
  marked _ := .ok ()

def byteFrame : Bytes := ascii "set=1\njc=5\n\n"

/-- The same with a byte that begins no character. -/
def brokenFrame : Bytes := ascii "set=1\njc=5\n" ++ [0xFF, 10, 10]

theorem success_whole_byteFrame :
    ∃ d', apiSet byteOutside (byteFrame.drop 6) Interface.byteInterface byteSupply = some (0, d') ∧
      d'.amnezia.preHandshakeJunk.packetCount = 5 ∧
      Whole byteOutside (requestLines byteFrame) Interface.byteInterface byteSupply d' := by
  have htext : ∀ line ∈ requestLines byteFrame, validUtf8 line = true := by decide +kernel
  have hdecodable :
      ¬Undecodable byteOutside (requestLines byteFrame) Interface.byteInterface byteSupply := by
    rintro ⟨before, line, after, p, hsplit, -, hline⟩
    have hmem : line ∈ requestLines byteFrame := by simp [hsplit]
    exact Bool.false_ne_true (hline.symm.trans (htext line hmem))
  have hrun : (apiSet byteOutside (byteFrame.drop 6) Interface.byteInterface byteSupply).map
      (fun out => (out.1, out.2.amnezia.preHandshakeJunk.packetCount)) = some (0, 5) := by
    decide +kernel
  obtain ⟨⟨status, d'⟩, hset, hout⟩ := Option.map_eq_some_iff.mp hrun
  obtain ⟨rfl, hcount⟩ := Prod.mk.inj hout
  exact ⟨d', hset, hcount, (success_whole_iff byteOutside Interface.byteInterface byteSupply
    (by decide +kernel) (by decide +kernel)).mpr hdecodable d' hset⟩

/-- The byte is answered with success, and the key before it is lost. -/
theorem success_not_whole :
    ascii "set=1\n" <+: brokenFrame ∧ cut isBlankLine brokenFrame = some brokenFrame.length ∧
      ∃ d', apiSet byteOutside (brokenFrame.drop 6) Interface.byteInterface byteSupply =
          some (0, d') ∧
        d'.amnezia.preHandshakeJunk.packetCount = 0 ∧
        ¬Whole byteOutside (requestLines brokenFrame) Interface.byteInterface byteSupply d' := by
  have hrun : (apiSet byteOutside (brokenFrame.drop 6) Interface.byteInterface byteSupply).map
      (fun out => (out.1, out.2.amnezia.preHandshakeJunk.packetCount)) = some (0, 0) := by
    decide +kernel
  obtain ⟨⟨status, d'⟩, hset, hout⟩ := Option.map_eq_some_iff.mp hrun
  obtain ⟨rfl, hcount⟩ := Prod.mk.inj hout
  refine ⟨by decide +kernel, by decide +kernel, d', hset, hcount, fun hwhole => ?_⟩
  have hbroken : [0xFF, NEWLINE] ∈ requestLines brokenFrame := by decide +kernel
  exact hwhole.readable _ hbroken (by decide +kernel)

end BoringTun.Uapi

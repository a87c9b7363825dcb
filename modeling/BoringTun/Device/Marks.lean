import BoringTun.Device.Interface

/-!
Marking the sockets of a device (`set_fwmark` and `restore_marks` in `device/mod.rs`).

The marks the sockets carry are read first. The new one is then written socket by socket; when
one refuses it, those already written are put back, newest first, as far as they let it. The
device is locked throughout, so no socket comes or goes, and a failed call changes nothing.

* `set_fwmark_marks`: what every socket carries afterwards, for every pattern of failures.
-/

namespace BoringTun

/-- A socket with the mark it carries, and which calls on it fail: reading the mark, writing a
new one, writing the old one back. -/
structure MarkSocket where
  mark : Nat
  readFault : Option DeviceError
  writeFault : Option DeviceError
  restoreFault : Option DeviceError

/-- The sockets of a device in the order they are marked, the listeners before the connected
sockets of the peers, and the mark it has stored. -/
structure Marks where
  sockets : List MarkSocket
  fwmark : Option Nat

namespace Marks

/-- The first loop: every socket with the mark it carries now. -/
def readMarks : List MarkSocket → Except DeviceError (List (MarkSocket × Nat))
  | [] => .ok []
  | socket :: rest =>
    match socket.readFault with
    | some e => .error e
    | none => (readMarks rest).map ((socket, socket.mark) :: ·)

/-- Put the changed sockets back, newest first; one that refuses keeps the new mark. -/
def restoreMarks (changed : List (MarkSocket × Nat)) : List MarkSocket :=
  changed.map fun (socket, previous) =>
    if socket.restoreFault.isSome then socket else { socket with mark := previous }

/-- The second loop. `changed` are the sockets it has marked, newest first. -/
def applyMarks (mark : Nat) (changed : List (MarkSocket × Nat)) :
    List (MarkSocket × Nat) → Except DeviceError Unit × List MarkSocket
  | [] => (.ok (), (changed.map Prod.fst).reverse)
  | (socket, previous) :: rest =>
    match socket.writeFault with
    | some e => (.error e, (restoreMarks changed).reverse ++ socket :: rest.map Prod.fst)
    | none => applyMarks mark (({ socket with mark }, previous) :: changed) rest

def setFwmark (m : Marks) (mark : Nat) : Except DeviceError Unit × Marks :=
  match readMarks m.sockets with
  | .error e => (.error e, m)
  | .ok targets =>
    match applyMarks mark [] targets with
    | (.error e, sockets) => (.error e, { m with sockets })
    | (.ok (), sockets) => (.ok (), { sockets, fwmark := some mark })

theorem readMarks_cases (sockets : List MarkSocket) :
    (∃ socket ∈ sockets, socket.readFault ≠ none) ∧ (∃ e, readMarks sockets = .error e) ∨
    (∀ socket ∈ sockets, socket.readFault = none) ∧
      readMarks sockets = .ok (sockets.map fun socket => (socket, socket.mark)) := by
  induction sockets with
  | nil => exact .inr ⟨List.forall_mem_nil _, rfl⟩
  | cons socket rest ih =>
    rw [readMarks]
    cases hread : socket.readFault with
    | some e => exact .inl ⟨⟨socket, List.mem_cons_self, by simp [hread]⟩, e, rfl⟩
    | none =>
      rcases ih with ⟨⟨faulty, hmem, hfault⟩, e, hrest⟩ | ⟨hall, hrest⟩
      · exact .inl ⟨⟨faulty, List.mem_cons_of_mem _ hmem, hfault⟩, e, by rw [hrest]; rfl⟩
      · exact .inr ⟨List.forall_mem_cons.mpr ⟨hread, hall⟩, by rw [hrest]; rfl⟩

/-- The sockets that take the mark have it, and are remembered with the old one. -/
theorem applyMarks_append (mark : Nat) {before : List MarkSocket}
    (h : ∀ socket ∈ before, socket.writeFault = none) (changed rest : List (MarkSocket × Nat)) :
    applyMarks mark changed (before.map (fun socket => (socket, socket.mark)) ++ rest) =
      applyMarks mark
        ((before.map fun socket => ({ socket with mark }, socket.mark)).reverse ++ changed) rest := by
  induction before generalizing changed with
  | nil => rfl
  | cons socket before ih =>
    obtain ⟨hsocket, hbefore⟩ := List.forall_mem_cons.mp h
    rw [List.map_cons, List.cons_append, applyMarks]
    split
    · next e hfault =>
      rw [hsocket] at hfault
      cases hfault
    · simpa using ih hbefore _

/-- **Marks after `set_fwmark`.** A failed read changes nothing. If every socket takes the new
mark, the device stores it. If one refuses it, the stored mark stays, and so do the marks of that
socket and of those after it; one before it carries the mark it had, or the new one if it
refused to be put back. -/
theorem set_fwmark_marks (m : Marks) (mark : Nat) :
    (∃ socket ∈ m.sockets, socket.readFault ≠ none) ∧ (∃ e, m.setFwmark mark = (.error e, m)) ∨
    (∀ socket ∈ m.sockets, socket.readFault = none) ∧
      ((∀ socket ∈ m.sockets, socket.writeFault = none) ∧
        m.setFwmark mark =
          (.ok (), ⟨m.sockets.map fun socket => { socket with mark }, some mark⟩) ∨
      ∃ before refusing after e, m.sockets = before ++ refusing :: after ∧
        (∀ socket ∈ before, socket.writeFault = none) ∧ refusing.writeFault = some e ∧
        m.setFwmark mark = (.error e, { m with
          sockets := (before.map fun socket =>
            if socket.restoreFault.isSome then { socket with mark } else socket) ++
              refusing :: after })) := by
  unfold setFwmark
  rcases readMarks_cases m.sockets with ⟨hfault, e, hread⟩ | ⟨hall, hread⟩
  · rw [hread]
    exact .inl ⟨hfault, e, rfl⟩
  · refine .inr ⟨hall, ?_⟩
    rw [hread]
    dsimp only
    cases hfirst : m.sockets.find? fun socket => socket.writeFault.isSome with
    | none =>
      have hwrite : ∀ socket ∈ m.sockets, socket.writeFault = none := by simpa using hfirst
      have happly := applyMarks_append mark hwrite [] []
      rw [List.append_nil] at happly
      refine .inl ⟨hwrite, ?_⟩
      rw [happly, applyMarks]
      simp
    | some refusing =>
      obtain ⟨hsome, before, after, hsplit, hbefore⟩ := List.find?_eq_some_iff_append.mp hfirst
      obtain ⟨e, hrefuse⟩ := Option.isSome_iff_exists.mp hsome
      have hwrite : ∀ socket ∈ before, socket.writeFault = none := by simpa using hbefore
      refine .inr ⟨before, refusing, after, e, hsplit, hwrite, hrefuse, ?_⟩
      rw [hsplit, List.map_append, applyMarks_append mark hwrite, List.map_cons, applyMarks, hrefuse]
      simp [restoreMarks, Function.comp_def]

end Marks

end BoringTun

import EChannel.App.FileReceiver

/-!
# `EChannel.Proofs.App.FileReceiving`: what a received file contains

What is queued for the file thread decides the content of the file, whenever the thread comes to
it (`drain_next`). So the proofs are about the file that a drained queue leaves (`drainedFile`),
and the steps of the file thread do not change it.

`FileHandle.Wired` says how the slots are connected: until `onInit` has run nothing else is queued,
and after it each signal has one connection. A `readyRead` is then written as often as `onRead` is
connected, or not at all before `onInit`. `exact_iff_writtenOnce` has the exact condition.
-/

set_option autoImplicit false

namespace EChannel.App

namespace FileHandle

variable (canOpen : QString → Bool) {h : FileHandle}

/-- The handle with another queue. -/
def withQueue (h : FileHandle) (queue : List FileSlot) : FileHandle := { h with queue }

/-! ### The slots -/

/-- `onSetFilePath` does not look at the queued slots. -/
theorem onSetFilePath_withQueue (h : FileHandle) (queue : List FileSlot) :
    (h.withQueue queue).onSetFilePath canOpen = (h.onSetFilePath canOpen).withQueue queue := rfl

/-- A slot does not look at the queue. -/
theorem runSlot_withQueue (h : FileHandle) (queue : List FileSlot) (slot : FileSlot) :
    (h.withQueue queue).runSlot canOpen slot = (h.runSlot canOpen slot).withQueue queue := by
  cases slot with
  | onInit =>
    have hcomm : Function.Semiconj (·.withQueue queue) (onSetFilePath canOpen)
        (onSetFilePath canOpen) := fun h => onSetFilePath_withQueue canOpen h queue
    exact (hcomm.iterate_right (h.connections + 1)
      { h with file := none, connections := h.connections + 1 }).symm
  | onSetFilePath => rfl
  | onWrite data => rfl
  | onClose => rfl

/-- `onSetFilePath` leaves the path, the connections and the queued slots alone, however often
it runs. -/
theorem iterate_onSetFilePath_filePath (n : Nat) (h : FileHandle) :
    ((onSetFilePath canOpen)^[n] h).filePath = h.filePath ∧
      ((onSetFilePath canOpen)^[n] h).connections = h.connections ∧
      ((onSetFilePath canOpen)^[n] h).queue = h.queue := by
  induction n generalizing h with
  | zero => exact ⟨rfl, rfl, rfl⟩
  | succ n ih =>
    rw [Function.iterate_succ_apply]
    exact ih (h.onSetFilePath canOpen)

/-- A slot leaves the path and the queue alone. -/
theorem runSlot_frame (h : FileHandle) (slot : FileSlot) :
    (h.runSlot canOpen slot).filePath = h.filePath ∧
      (h.runSlot canOpen slot).queue = h.queue := by
  cases slot with
  | onInit =>
    obtain ⟨hpath, -, hqueue⟩ := iterate_onSetFilePath_filePath canOpen
      (h.connections + 1) { h with file := none, connections := h.connections + 1 }
    exact ⟨hpath, hqueue⟩
  | onSetFilePath => exact ⟨rfl, rfl⟩
  | onWrite data => exact ⟨rfl, rfl⟩
  | onClose => exact ⟨rfl, rfl⟩

/-- `onInit` adds a connection, and nothing else does. -/
theorem runSlot_connections (h : FileHandle) (slot : FileSlot) :
    (h.runSlot canOpen slot).connections =
      if slot = .onInit then h.connections + 1 else h.connections := by
  cases slot with
  | onInit =>
    rw [if_pos rfl]
    exact (iterate_onSetFilePath_filePath canOpen (h.connections + 1)
      { h with file := none, connections := h.connections + 1 }).2.1
  | onSetFilePath => rfl
  | onWrite data => rfl
  | onClose => rfl

/-! ### The drained queue -/

/-- Whether a slot runs now or later, the drained queue leaves the same. -/
theorem drain_next (h : FileHandle) : (h.next canOpen).drain canOpen = h.drain canOpen := by
  unfold next
  split
  · rfl
  · rename_i slot queue hqueue
    have hrun := runSlot_withQueue canOpen h queue slot
    have hempty := runSlot_withQueue canOpen h [] slot
    show ((h.withQueue queue).runSlot canOpen slot).drain canOpen = _
    rw [hrun]
    show queue.foldl (runSlot canOpen) ((h.runSlot canOpen slot).withQueue []) =
      h.queue.foldl (runSlot canOpen) (h.withQueue [])
    rw [hqueue, List.foldl_cons, hempty]

/-- The queued slots leave the path alone. -/
theorem foldl_runSlot_filePath (slots : List FileSlot) (h : FileHandle) :
    (slots.foldl (runSlot canOpen) h).filePath = h.filePath := by
  induction slots generalizing h with
  | nil => rfl
  | cons slot slots ih => rw [List.foldl_cons, ih, (runSlot_frame canOpen h slot).1]

/-- A slot that is queued behind the others runs last. -/
theorem drain_emitSignal (hc : h.connections = 1) (slot : FileSlot) :
    (h.emitSignal slot).drain canOpen = (h.drain canOpen).runSlot canOpen slot := by
  show (h.queue ++ List.replicate h.connections slot).foldl (runSlot canOpen) (h.withQueue []) = _
  rw [hc, List.foldl_append]
  rfl

/-- A signal without connections is lost. -/
theorem emitSignal_of_zero (hc : h.connections = 0) (slot : FileSlot) : h.emitSignal slot = h := by
  have hnone : List.replicate h.connections slot = [] := by rw [hc, List.replicate_zero]
  show { h with queue := h.queue ++ List.replicate h.connections slot } = h
  rw [hnone, List.append_nil]

/-! ### How the slots are connected -/

/-- Only `onInit` is queued until it has run. After that there is one connection, and it does not
run again. -/
def Wired (h : FileHandle) : Prop :=
  h.connections = 0 ∧ h.queue = [.onInit] ∨ h.connections = 1 ∧ .onInit ∉ h.queue

/-- A new file handle has its `onInit` queued. -/
theorem wired_init (filePath : QString) : (init filePath).Wired := Or.inl ⟨rfl, rfl⟩

/-- A signal that is emitted keeps the wiring. -/
theorem Wired.emitSignal (hw : h.Wired) {slot : FileSlot} (hslot : slot ≠ .onInit) :
    (h.emitSignal slot).Wired := by
  rcases hw with ⟨hc, hq⟩ | ⟨hc, hq⟩
  · rw [emitSignal_of_zero hc]
    exact Or.inl ⟨hc, hq⟩
  · refine Or.inr ⟨hc, fun hmem => ?_⟩
    rcases List.mem_append.mp hmem with hold | hnew
    · exact hq hold
    · exact hslot (List.eq_of_mem_replicate hnew).symm

/-- The next slot keeps the wiring. -/
theorem Wired.next (hw : h.Wired) : (h.next canOpen).Wired := by
  unfold FileHandle.next
  split
  · exact hw
  · rename_i slot queue hqueue
    have hframe := (runSlot_frame canOpen { h with queue } slot).2
    have hconns := runSlot_connections canOpen { h with queue } slot
    right
    rw [hframe, hconns]
    rcases hw with ⟨hc, hq⟩ | ⟨hc, hq⟩
    · -- The slot is `onInit`, the only one that is queued.
      rw [hq] at hqueue
      cases hqueue
      exact ⟨by rw [if_pos rfl, hc], List.not_mem_nil⟩
    · rw [hqueue] at hq
      have hne : slot ≠ .onInit := fun heq => hq (heq ▸ List.mem_cons_self)
      exact ⟨by rw [if_neg hne, hc], fun hmem => hq (List.mem_cons_of_mem _ hmem)⟩

/-- The path is set: the drained queue leaves the new file, empty if it can be opened. -/
theorem drain_setFilePath (hw : h.Wired) (filePath : QString) :
    ((h.setFilePath filePath).drain canOpen).file =
      if canOpen filePath then some [] else none := by
  rcases hw with ⟨hc, hq⟩ | ⟨hc, -⟩
  · -- The signal is lost, but `onInit` opens the path that it finds.
    have hlost : h.setFilePath filePath = { h with filePath } :=
      emitSignal_of_zero (h := { h with filePath }) hc .onSetFilePath
    rw [hlost]
    show ((h.queue.foldl (runSlot canOpen) { h with filePath, queue := [] }).file) = _
    rw [hq, List.foldl_cons, List.foldl_nil]
    show ((onSetFilePath canOpen)^[h.connections + 1] _).file = _
    rw [hc]
    rfl
  · have hlast : (h.setFilePath filePath).drain canOpen =
        (FileHandle.drain canOpen { h with filePath }).runSlot canOpen .onSetFilePath :=
      drain_emitSignal canOpen (h := { h with filePath }) hc .onSetFilePath
    have hpath : (FileHandle.drain canOpen { h with filePath }).filePath = filePath :=
      foldl_runSlot_filePath canOpen h.queue _
    rw [hlast]
    show (if canOpen (FileHandle.drain canOpen { h with filePath }).filePath then _ else _) = _
    rw [hpath]

/-- Data is written once for each call. -/
theorem drain_iterate_write (data : QByteArray) (n : Nat) :
    ∀ h : FileHandle, h.connections = 1 →
      (((·.write data)^[n] h).drain canOpen).file =
        (h.drain canOpen).file.map (· ++ (List.replicate n data).flatten) := by
  induction n with
  | zero =>
    intro h _
    simp only [Function.iterate_zero, id_eq, List.replicate_zero, List.flatten_nil,
      List.append_nil, Option.map_id']
  | succ n ih =>
    intro h hc
    rw [Function.iterate_succ_apply, ih (h.write data) hc]
    have hlast : (h.write data).drain canOpen = (h.drain canOpen).onWrite data :=
      drain_emitSignal canOpen hc (.onWrite data)
    rw [hlast]
    show ((h.drain canOpen).file.map (· ++ data)).map _ = _
    rw [Option.map_map]
    congr 1
    funext content
    simp only [Function.comp_apply, List.replicate_succ, List.flatten_cons, List.append_assoc]

end FileHandle

namespace FileReceiver

variable (canOpen : QString → Bool) {s t : FileReceiver}

/-- Once the file thread has drained its queue, the open file contains what was received since
`recvFile`, each part once and in order. -/
def Exact (s : FileReceiver) : Prop :=
  ∀ n t h, run (step canOpen) s (List.replicate n .fileThread) = some t →
    t.fileRecvHandle = some h → h.queue = [] →
    ∀ content, h.file = some content → content = s.received

/-! ### The steps of the file thread -/

/-- A step of the file thread only does what was due: the file in the end is the same. -/
theorem drainedFile_fileThread (hst : step canOpen s .fileThread = some t) :
    t.drainedFile canOpen = s.drainedFile canOpen := by
  cases hst
  unfold drainedFile
  cases s.fileRecvHandle with
  | none => rfl
  | some h => exact congrArg FileHandle.file (FileHandle.drain_next canOpen h)

/-- Any number of steps of the file thread leave the file in the end as it is. -/
theorem drainedFile_run (n : Nat) : ∀ s t : FileReceiver,
    run (step canOpen) s (List.replicate n .fileThread) = some t →
      t.drainedFile canOpen = s.drainedFile canOpen := by
  induction n with
  | zero =>
    intro s t hrun
    cases hrun
    rfl
  | succ n ih =>
    intro s t hrun
    obtain ⟨u, hst, hrest⟩ := run_cons hrun
    rw [ih u t hrest, drainedFile_fileThread canOpen hst]

/-- The file thread comes to the end of its queue. -/
theorem exists_drained (n : Nat) : ∀ (s : FileReceiver) (h : FileHandle),
    s.fileRecvHandle = some h → h.queue.length = n →
      ∃ t h', run (step canOpen) s (List.replicate n .fileThread) = some t ∧
        t.fileRecvHandle = some h' ∧ h'.queue = [] := by
  -- Each step takes one slot from the queue and adds none.
  induction n with
  | zero => exact fun s h hs hlen => ⟨s, h, rfl, hs, List.length_eq_zero_iff.mp hlen⟩
  | succ n ih =>
    intro s h hs hlen
    obtain ⟨slot, queue, hqueue⟩ : ∃ slot queue, h.queue = slot :: queue :=
      List.exists_cons_of_length_eq_add_one hlen
    have hnext : h.next canOpen = ({ h with queue } : FileHandle).runSlot canOpen slot := by
      unfold FileHandle.next
      rw [hqueue]
    have hlen' : (h.next canOpen).queue.length = n := by
      rw [hnext, (FileHandle.runSlot_frame canOpen _ slot).2]
      rw [hqueue, List.length_cons] at hlen
      exact Nat.succ.inj hlen
    have hst : step canOpen s .fileThread =
        some { s with fileRecvHandle := some (h.next canOpen) } := by
      simp only [step, hs, Option.map_some]
    obtain ⟨t, h', hrun, ht⟩ :=
      ih { s with fileRecvHandle := some (h.next canOpen) } (h.next canOpen) rfl hlen'
    refine ⟨t, h', ?_, ht⟩
    rw [List.replicate_succ, run_step hst]
    exact hrun

/-- The property, on the file that the drained queue leaves. -/
theorem exact_iff : Exact canOpen s ↔
    ∀ content, s.drainedFile canOpen = some content → content = s.received := by
  -- A handle with an empty queue has the drained file.
  have hdrained : ∀ {t : FileReceiver} {h : FileHandle}, t.fileRecvHandle = some h →
      h.queue = [] → t.drainedFile canOpen = h.file := by
    intro t h ht hqueue
    unfold drainedFile FileHandle.drain
    rw [ht]
    dsimp only
    rw [hqueue]
    rfl
  constructor
  · intro hexact content hfile
    cases hs : s.fileRecvHandle with
    | none =>
      unfold drainedFile at hfile
      rw [hs] at hfile
      cases hfile
    | some h =>
      -- The thread goes on until the queue is empty.
      obtain ⟨t, h', hrun, ht, hqueue⟩ := exists_drained canOpen _ s h hs rfl
      have hsame := drainedFile_run canOpen _ s t hrun
      rw [hdrained ht hqueue] at hsame
      exact hexact _ t h' hrun ht hqueue content (hsame.trans hfile)
  · intro hall n t h hrun ht hqueue content hfile
    have hsame := drainedFile_run canOpen n s t hrun
    rw [hdrained ht hqueue, hfile] at hsame
    exact hall content hsame.symm

/-! ### The steps of the main thread -/

/-- A `readyRead` that is received is written once: it goes to a file that will be open, through
one connection and after `onInit`. -/
def WrittenOnce (s : FileReceiver) : ReceiverAction → Prop
  | .readyRead sessionId data =>
    ¬ s.Receives sessionId ∨ data = [] ∨ s.drainedFile canOpen = none ∨
      (s.readConns sessionId = 1 ∧ ∃ h, s.fileRecvHandle = some h ∧ h.connections = 1)
  | _ => True

/-- The drained file is what was received, and the slots are connected as they should be. -/
structure Inv (s : FileReceiver) : Prop where
  exact : ∀ content, s.drainedFile canOpen = some content → content = s.received
  wired : ∀ h, s.fileRecvHandle = some h → h.Wired

/-- Nothing is received at first. -/
theorem inv_init : Inv canOpen init where
  exact _ h := nomatch h
  wired _ h := nomatch h

/-- A step that leaves the handle and the received data alone. -/
theorem Inv.of_frame (hs : Inv canOpen s) (hh : t.fileRecvHandle = s.fileRecvHandle)
    (hr : t.received = s.received) : Inv canOpen t where
  exact content hfile := by
    unfold drainedFile at hfile
    rw [hh] at hfile
    rw [hr]
    exact hs.exact content hfile
  wired h ht := hs.wired h (hh ▸ ht)

/-- The file thread keeps the invariant. -/
theorem Inv.fileThread (hs : Inv canOpen s) (hst : step canOpen s .fileThread = some t) :
    Inv canOpen t where
  exact content hfile := by
    rw [drainedFile_fileThread canOpen hst] at hfile
    cases hst
    exact hs.exact content hfile
  wired h ht := by
    cases hst
    obtain ⟨h₀, hs₀, heq⟩ := Option.map_eq_some_iff.mp ht
    rw [← heq]
    exact (hs.wired h₀ hs₀).next canOpen

/-- `recvFile` starts with a new file, and nothing is received yet. -/
theorem Inv.recvFile (hs : Inv canOpen s) (filePath : QString) :
    Inv canOpen (s.recvFile filePath) := by
  -- Either way the drained queue leaves the new file.
  have hboth : ∃ h, (s.recvFile filePath).fileRecvHandle = some h ∧ h.Wired ∧
      (h.drain canOpen).file = if canOpen filePath then some [] else none := by
    unfold FileReceiver.recvFile
    cases hh : s.fileRecvHandle with
    | none => exact ⟨_, rfl, FileHandle.wired_init filePath, rfl⟩
    | some h =>
      have hw := hs.wired h hh
      exact ⟨_, rfl, FileHandle.Wired.emitSignal (h := { h with filePath }) hw (by simp),
        FileHandle.drain_setFilePath canOpen hw filePath⟩
  obtain ⟨h, hh, hw, hfile⟩ := hboth
  refine ⟨fun content hcontent => ?_, fun h' hh' => ?_⟩
  · unfold drainedFile at hcontent
    rw [hh] at hcontent
    dsimp only at hcontent
    rw [hfile] at hcontent
    split at hcontent
    · exact (Option.some.inj hcontent).symm
    · cases hcontent
  · rw [hh] at hh'
    cases hh'
    exact hw

/-- `onStop` keeps the invariant. -/
theorem Inv.onStop (hs : Inv canOpen s) (hst : s.onStop = some t) : Inv canOpen t := by
  unfold FileReceiver.onStop at hst
  cases hh : s.fileRecvHandle with
  | none =>
    rw [hh] at hst
    cases hst
  | some h =>
    rw [hh] at hst
    cases hst
    have hw := hs.wired h hh
    refine ⟨fun content hcontent => ?_, fun h' hh' => ?_⟩
    · rcases hw with ⟨hc, -⟩ | ⟨hc, -⟩
      · -- The signal is lost, and the file will be opened.
        have hlost : h.close = h := FileHandle.emitSignal_of_zero hc .onClose
        refine hs.exact content ?_
        unfold drainedFile at hcontent ⊢
        rw [hh]
        dsimp only at hcontent ⊢
        rwa [hlost] at hcontent
      · -- The handle closes its file, and nothing is claimed of it any more.
        have hlast : h.close.drain canOpen = (h.drain canOpen).onClose :=
          FileHandle.drain_emitSignal canOpen hc .onClose
        unfold drainedFile at hcontent
        dsimp only at hcontent
        rw [hlast] at hcontent
        cases hcontent
    · cases hh'
      exact hw.emitSignal (by simp)

/-- The calls of `onRead` leave the connections and the order of the slots alone. -/
theorem wired_iterate_write (data : QByteArray) (n : Nat) : ∀ h : FileHandle, h.Wired →
    ((fun h : FileHandle => h.write data)^[n] h).Wired := by
  induction n with
  | zero => exact fun h hw => hw
  | succ n ih =>
    intro h hw
    rw [Function.iterate_succ_apply]
    exact ih _ (hw.emitSignal (by simp))

/-- Before `onInit` the calls are lost. -/
theorem iterate_write_of_zero (data : QByteArray) {h : FileHandle} (hc : h.connections = 0)
    (n : Nat) : (fun h : FileHandle => h.write data)^[n] h = h :=
  Function.iterate_fixed (FileHandle.emitSignal_of_zero hc (.onWrite data)) n

/-- What a `readyRead` does: without a connection nothing is written, else each one writes. -/
theorem readyRead_cases {sessionId : QString} {data : QByteArray}
    (hst : s.readyRead sessionId data = some t) :
    t.received = (if s.Receives sessionId then s.received ++ data else s.received) ∧
      (s.readConns sessionId = 0 ∧ t.fileRecvHandle = s.fileRecvHandle ∨
        s.readConns sessionId ≠ 0 ∧ ∃ h, s.fileRecvHandle = some h ∧
          t.fileRecvHandle =
            some ((fun h : FileHandle => h.write data)^[s.readConns sessionId] h)) := by
  simp only [FileReceiver.readyRead] at hst
  split at hst
  · rename_i hzero
    cases hst
    exact ⟨rfl, Or.inl ⟨hzero, rfl⟩⟩
  · rename_i hconns
    cases hh : s.fileRecvHandle with
    | none =>
      rw [hh] at hst
      cases hst
    | some h =>
      rw [hh] at hst
      cases hst
      exact ⟨rfl, Or.inr ⟨hconns, h, rfl, rfl⟩⟩

/-- The handle after a `readyRead` has its slots connected as before. -/
theorem wired_readyRead {sessionId : QString} {data : QByteArray}
    (hw : ∀ h, s.fileRecvHandle = some h → h.Wired)
    (hst : s.readyRead sessionId data = some t) (h : FileHandle)
    (hh : t.fileRecvHandle = some h) : h.Wired := by
  rcases (readyRead_cases hst).2 with ⟨-, hsame⟩ | ⟨-, h₀, hh₀, ht⟩
  · exact hw h (hsame ▸ hh)
  · rw [ht] at hh
    cases hh
    exact wired_iterate_write data _ h₀ (hw h₀ hh₀)

/-- The drained file after a `readyRead`: the data is there once for each connection, or not at
all while `onInit` is queued. -/
theorem drainedFile_readyRead {sessionId : QString} {data : QByteArray}
    (hw : ∀ h, s.fileRecvHandle = some h → h.Wired)
    (hst : s.readyRead sessionId data = some t) :
    t.drainedFile canOpen = (s.drainedFile canOpen).map (· ++
      (List.replicate (if ∃ h, s.fileRecvHandle = some h ∧ h.connections = 1 then
        s.readConns sessionId else 0) data).flatten) := by
  have hnothing : (s.drainedFile canOpen).map (· ++ (List.replicate 0 data).flatten) =
      s.drainedFile canOpen := by
    simp only [List.replicate_zero, List.flatten_nil, List.append_nil, Option.map_id']
  rcases (readyRead_cases hst).2 with ⟨hzero, hsame⟩ | ⟨-, h, hh, ht⟩
  · rw [hzero, ite_self, hnothing]
    unfold drainedFile
    rw [hsame]
  · have hwired := hw h hh
    unfold drainedFile at hnothing ⊢
    rw [ht]
    rw [hh] at hnothing ⊢
    dsimp only at hnothing ⊢
    rcases hwired with ⟨hc, -⟩ | ⟨hc, -⟩
    · have hno : ¬ ∃ h', some h = some h' ∧ h'.connections = 1 := by
        rintro ⟨h', heq, hc'⟩
        cases heq
        omega
      rw [if_neg hno, hnothing, iterate_write_of_zero data hc]
    · rw [if_pos ⟨h, rfl, hc⟩]
      exact FileHandle.drain_iterate_write canOpen data _ h hc

/-- The step lemma for `readyRead`. -/
theorem Inv.readyRead (hs : Inv canOpen s) {sessionId : QString} {data : QByteArray}
    (hcond : WrittenOnce canOpen s (.readyRead sessionId data))
    (hst : s.readyRead sessionId data = some t) : Inv canOpen t := by
  have hr := (readyRead_cases hst).1
  have hdrained := drainedFile_readyRead canOpen hs.wired hst
  refine ⟨fun content hcontent => ?_, wired_readyRead hs.wired hst⟩
  rw [hdrained] at hcontent
  obtain ⟨old, hold, rfl⟩ := Option.map_eq_some_iff.mp hcontent
  rw [hr, hs.exact old hold]
  rcases hcond with hother | hnil | hclosed | ⟨hone, hwritten⟩
  · -- Another channel, that the window is not connected to.
    have hzero : s.readConns sessionId = 0 := by
      by_contra hne
      exact hother (Or.inr hne)
    rw [if_neg hother, hzero, ite_self, List.replicate_zero, List.flatten_nil, List.append_nil]
  · -- Nothing is written, however often.
    subst hnil
    rw [List.flatten_replicate_nil, List.append_nil, ite_self]
  · -- No file will be open, and nothing is claimed.
    cases hclosed.symm.trans hold
  · have hreceives : s.Receives sessionId := Or.inr (by omega)
    rw [if_pos hreceives, if_pos hwritten, hone, List.replicate_one, List.flatten_singleton]

/-- A `readyRead` into a state with the property is written once. -/
theorem writtenOnce_of_exact (hs : Inv canOpen s) {sessionId : QString} {data : QByteArray}
    (hst : s.readyRead sessionId data = some t)
    (ht : ∀ content, t.drainedFile canOpen = some content → content = t.received) :
    WrittenOnce canOpen s (.readyRead sessionId data) := by
  by_cases hreceives : s.Receives sessionId
  · cases hfile : s.drainedFile canOpen with
    | none => exact Or.inr (Or.inr (Or.inl hfile))
    | some old =>
      have hdrained := drainedFile_readyRead canOpen hs.wired hst
      rw [hfile] at hdrained
      have hsame := ht _ hdrained
      rw [(readyRead_cases hst).1, if_pos hreceives, hs.exact old hfile,
        List.append_cancel_left_eq] at hsame
      -- The lengths give the number of times that the data is there.
      have hlen := congrArg List.length hsame
      rw [List.length_flatten, List.map_replicate, List.sum_replicate_nat] at hlen
      rcases Nat.eq_zero_or_pos data.length with hzero | hpos
      · exact Or.inr (Or.inl (List.length_eq_zero_iff.mp hzero))
      · have hone := Nat.eq_of_mul_eq_mul_right hpos (hlen.trans (Nat.one_mul _).symm)
        split at hone
        · exact Or.inr (Or.inr (Or.inr ⟨hone, by assumption⟩))
        · cases hone
  · exact Or.inl hreceives

/-! ### Runs -/

/-- The step lemma: a step that meets the condition keeps the invariant. -/
theorem Inv.step {a : ReceiverAction} (hs : Inv canOpen s)
    (hst : FileReceiver.step canOpen s a = some t) (hcond : WrittenOnce canOpen s a) :
    Inv canOpen t := by
  cases a with
  | readyRead sessionId data => exact hs.readyRead canOpen hcond hst
  | onStop => exact hs.onStop canOpen hst
  | fileThread => exact hs.fileThread canOpen hst
  | recvFile filePath =>
    cases hst
    exact hs.recvFile canOpen filePath
  | send fresh =>
    cases hst
    exact hs.of_frame canOpen rfl rfl
  | sendFile fresh =>
    cases hst
    exact hs.of_frame canOpen rfl rfl
  | onInvite uuid currentIndex fresh =>
    cases hst
    exact hs.of_frame canOpen rfl rfl
  | channelError sessionId deleted =>
    cases hst
    exact hs.of_frame canOpen rfl rfl
  | onRDPError =>
    cases hst
    exact hs.of_frame canOpen rfl rfl

/-- Every state of a run leads to a file with the received data exactly when every `readyRead` of
the run is written once. -/
theorem exact_iff_writtenOnce (as : List ReceiverAction) (u : FileReceiver)
    (hrun : run (step canOpen) init as = some u) :
    Always (step canOpen) (Exact canOpen) init as ↔
      AllSteps (step canOpen) (WrittenOnce canOpen) init as := by
  refine always_iff_allSteps
    (fun s a t (hs : Inv canOpen s) hst hcond => hs.step canOpen hst hcond)
    (fun s hs => (exact_iff canOpen).mpr hs.exact) (fun s a t hs hst ht => ?_) as init u
    (inv_init canOpen) hrun
  cases a with
  | readyRead sessionId data =>
    exact writtenOnce_of_exact canOpen hs hst ((exact_iff canOpen).mp ht)
  | send fresh => trivial
  | sendFile fresh => trivial
  | onInvite uuid currentIndex fresh => trivial
  | recvFile filePath => trivial
  | onStop => trivial
  | channelError sessionId deleted => trivial
  | onRDPError => trivial
  | fileThread => trivial

/-- A file is received through one connection, and the file thread is in time. -/
theorem exact_one_invite :
    Always (step fun _ => true) (Exact fun _ => true) init
      [.onInvite ['1'] 1 [], .recvFile ['f'], .fileThread, .readyRead ['1'] [7, 8],
        .readyRead ['1'] [9]] := by
  refine (exact_iff_writtenOnce (fun _ => true) _ _ rfl).mpr
    ⟨trivial, fun _ h₁ => ⟨trivial, fun _ h₂ => ⟨trivial, fun _ h₃ => ?_⟩⟩⟩
  cases h₁
  cases h₂
  cases h₃
  refine ⟨Or.inr (Or.inr (Or.inr ⟨rfl, _, rfl, rfl⟩)), fun _ h₄ => ?_⟩
  cases h₄
  exact ⟨Or.inr (Or.inr (Or.inr ⟨rfl, _, rfl, rfl⟩)), fun _ _ => trivial⟩

/-- The invite for a session comes twice, and the data is written twice. -/
theorem not_exact_two_invites :
    ∃ t h, run (step fun _ => true) init
        [.onInvite ['1'] 1 [], .onInvite ['1'] 1 [], .recvFile ['f'], .fileThread,
          .readyRead ['1'] [7, 8], .fileThread, .fileThread] = some t ∧
      t.fileRecvHandle = some h ∧ h.queue = [] ∧ h.file = some [7, 8, 7, 8] ∧
      t.received = [7, 8] ∧ ¬ Exact (fun _ => true) t := by
  refine ⟨_, _, rfl, rfl, rfl, rfl, rfl, fun hexact => ?_⟩
  have hsame := hexact 0 _ _ rfl rfl rfl _ rfl
  cases hsame

end FileReceiver

end EChannel.App

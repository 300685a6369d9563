import EChannel.App.FileSender

/-!
# `EChannel.Proofs.App.FileSending`: the blocks are the file

`Sending` is the invariant of a transfer: what was written, what is left of the buffer and what
the file has not given yet are the file, in this order, and the buffer is empty only when the
file is read to its end. `onIdle` keeps it in each of its branches, so it holds after every
number of notifications (`sending_idles`).

`file_sent_in_order` is the statement about the blocks. `closed_of_idles` is that the transfer
ends: each notification writes a byte at least, so with a positive block size there are at most
as many of them as the file has bytes, and one more.
-/

set_option autoImplicit false

namespace EChannel.App

namespace ReadFile

variable {f : ReadFile} {n : Nat}

/-- The bytes that are read and those that are left were there before. -/
theorem read_append (f : ReadFile) (n : Nat) : (f.read n).1 ++ (f.read n).2.unread = f.unread := by
  have hdrop : f.content.drop (min (f.pos + n) f.content.length) = f.unread.drop n := by
    rw [unread, List.drop_drop]
    rcases Nat.le_total (f.pos + n) f.content.length with h | h
    · rw [Nat.min_eq_left h]
    · rw [Nat.min_eq_right h, List.drop_length, List.drop_eq_nil_of_le h]
  show f.unread.take n ++ f.content.drop (min (f.pos + n) f.content.length) = f.unread
  rw [hdrop, List.take_append_drop]

/-- The file is read to its end when no byte is left. -/
theorem atEnd_iff (f : ReadFile) : f.atEnd = true ↔ f.unread = [] := by
  have hle := f.pos_le
  rw [atEnd, decide_eq_true_iff, unread, List.drop_eq_nil_iff]
  omega

/-- Nothing is read only at the end. -/
theorem unread_read_of_nil (hn : 0 < n) (h : (f.read n).1 = []) : (f.read n).2.unread = [] := by
  have happ := read_append f n
  have hall : f.unread = [] := by
    rcases List.take_eq_nil_iff.mp h with h | h
    · omega
    · exact h
  rw [hall] at happ
  exact (List.append_eq_nil_iff.mp happ).2

end ReadFile

namespace FileSender

variable {s : FileSender} {content : QByteArray}

/-- The transfer of a file. -/
structure Sending (content : QByteArray) (s : FileSender) : Prop where
  /-- Nothing is lost, and nothing comes twice. -/
  whole : ∃ file, s.fileSend = some file ∧
    s.written.flatten ++ s.buf.drop s.pos ++ file.unread = content ∧
      (s.buf = [] → file.unread = [])
  pos_le : s.pos ≤ s.buf.length
  /-- The buffer is loaded again as soon as it is written. -/
  pos_lt : s.buf ≠ [] → s.pos < s.buf.length
  /-- The channel is closed behind the last block. -/
  closed_whole : s.closed = true → s.channel = false ∧ s.written.flatten = content

/-- What was written so far is the beginning of the file. -/
theorem Sending.written_initial (h : Sending content s) : s.written.flatten <+: content := by
  obtain ⟨file, -, hwhole, -⟩ := h.whole
  rw [List.append_assoc] at hwhole
  exact ⟨_, hwhole⟩

/-- A block is what the buffer has at the position. -/
theorem mid_append (buf : QByteArray) (pos : Nat) (len : Int) :
    mid buf pos len ++ buf.drop (pos + (mid buf pos len).length) = buf.drop pos := by
  unfold mid
  split
  · have hend : buf.length ≤ pos + (buf.drop pos).length := by
      rw [List.length_drop]
      omega
    rw [List.drop_eq_nil_of_le hend, List.append_nil]
  · rw [← List.drop_drop, List.length_take]
    rcases Nat.le_total len.toNat (buf.drop pos).length with h | h
    · rw [Nat.min_eq_left h, List.take_append_drop]
    · rw [Nat.min_eq_right h, List.take_of_length_le h, List.drop_length, List.append_nil]

/-- An empty block leaves the rest of the buffer. -/
theorem length_mid_le (buf : QByteArray) (pos : Nat) (len : Int) :
    (mid buf pos len).length ≤ buf.length - pos := by
  have happ := congrArg List.length (mid_append buf pos len)
  rw [List.length_append, List.length_drop, List.length_drop] at happ
  omega

/-- The state after a block, before the buffer is looked at. -/
def wrote (s : FileSender) : FileSender :=
  { s with
    written := s.written ++ [mid s.buf s.pos s.blocksize]
    pos := s.pos + (mid s.buf s.pos s.blocksize).length }

/-- The buffer is loaded from the file. -/
def loaded (s : FileSender) (file : ReadFile) : FileSender :=
  { s with buf := (file.read bufSize).1, fileSend := some (file.read bufSize).2, pos := 0 }

/-- What a notification does to a transfer. -/
theorem onIdle_cases {file : ReadFile} (hfile : s.fileSend = some file) :
    s.channel = false ∧ s.onIdle = s ∨
      s.channel = true ∧ s.buf = [] ∧ file.atEnd = true ∧
        s.onIdle = { s with channel := false, closed := true } ∨
      s.channel = true ∧ s.buf = [] ∧ file.atEnd = false ∧ s.onIdle = s ∨
      s.channel = true ∧ s.buf ≠ [] ∧ s.wrote.pos = s.buf.length ∧
        s.onIdle = s.wrote.loaded file ∨
      s.channel = true ∧ s.buf ≠ [] ∧ s.wrote.pos ≠ s.buf.length ∧ s.onIdle = s.wrote := by
  unfold onIdle
  by_cases hchan : s.channel = false
  · exact Or.inl ⟨hchan, if_pos hchan⟩
  · rw [if_neg hchan]
    have hset : s.channel = true := eq_true_of_ne_false hchan
    refine Or.inr ?_
    by_cases hbuf : s.buf.isEmpty
    · have hnil := List.isEmpty_iff.mp hbuf
      rw [if_pos hbuf, hfile]
      by_cases hend : file.atEnd
      · exact Or.inl ⟨hset, hnil, hend, if_pos hend⟩
      · exact Or.inr (Or.inl ⟨hset, hnil, eq_false_of_ne_true hend, if_neg hend⟩)
    · have hne : s.buf ≠ [] := fun h => hbuf (List.isEmpty_iff.mpr h)
      rw [if_neg hbuf]
      refine Or.inr (Or.inr ?_)
      show _ ∧ _ ∧ _ ∧ (if s.wrote.pos = s.buf.length then _ else _) = _ ∨ _
      by_cases hpos : s.wrote.pos = s.buf.length
      · refine Or.inl ⟨hset, hne, hpos, ?_⟩
        rw [if_pos hpos]
        dsimp only
        rw [hfile]
        rfl
      · exact Or.inr ⟨hset, hne, hpos, if_neg hpos⟩

/-- A block is taken from the rest of the buffer. -/
theorem wrote_append (s : FileSender) :
    s.wrote.written.flatten ++ s.wrote.buf.drop s.wrote.pos =
      s.written.flatten ++ s.buf.drop s.pos := by
  show (s.written ++ [mid s.buf s.pos s.blocksize]).flatten ++
    s.buf.drop (s.pos + (mid s.buf s.pos s.blocksize).length) = _
  rw [List.flatten_append, List.flatten_singleton, List.append_assoc, mid_append]

/-- The position does not pass the end of the block. -/
theorem wrote_pos_le (h : s.pos ≤ s.buf.length) : s.wrote.pos ≤ s.buf.length := by
  have hlen := length_mid_le s.buf s.pos s.blocksize
  show s.pos + (mid s.buf s.pos s.blocksize).length ≤ s.buf.length
  omega

/-- A notification keeps the transfer right. -/
theorem Sending.onIdle (h : Sending content s) : Sending content s.onIdle := by
  obtain ⟨⟨file, hfile, hwhole, hempty⟩, hpos, hlt, hclosed⟩ := h
  obtain ⟨-, heq⟩ | ⟨-, hbuf, -, heq⟩ | ⟨-, -, -, heq⟩ | ⟨hset, hbuf, hend, heq⟩ |
    ⟨hset, hbuf, hend, heq⟩ := onIdle_cases hfile
  · rw [heq]
    exact ⟨⟨file, hfile, hwhole, hempty⟩, hpos, hlt, hclosed⟩
  · -- The buffer is empty, so that the file was read to its end and written.
    have hdone : s.written.flatten = content := by
      rw [hbuf, List.drop_nil, List.append_nil, hempty hbuf, List.append_nil] at hwhole
      exact hwhole
    rw [heq]
    exact ⟨⟨file, hfile, hwhole, hempty⟩, hpos, hlt, fun _ => ⟨rfl, hdone⟩⟩
  · rw [heq]
    exact ⟨⟨file, hfile, hwhole, hempty⟩, hpos, hlt, hclosed⟩
  · -- The buffer is written to its end, and the next part of the file is read.
    have hrest : s.wrote.written.flatten = s.written.flatten ++ s.buf.drop s.pos := by
      rw [← wrote_append s, hend]
      show _ = _ ++ s.buf.drop s.buf.length
      rw [List.drop_length, List.append_nil]
    have hread := ReadFile.read_append file bufSize
    have hall : s.wrote.written.flatten ++ (file.read bufSize).1 ++
        (file.read bufSize).2.unread = content := by
      rw [List.append_assoc, hread, hrest, hwhole]
    rw [heq]
    refine ⟨⟨_, rfl, hall, ReadFile.unread_read_of_nil (by decide)⟩, Nat.zero_le _,
      fun hne => List.length_pos_iff.mpr hne, fun hc => ?_⟩
    exact absurd (hset.symm.trans (hclosed hc).1) Bool.noConfusion
  · -- A part of the buffer is left.
    have hle := wrote_pos_le hpos
    rw [heq]
    refine ⟨⟨file, hfile, ?_, fun hnil => absurd hnil hbuf⟩, hle,
      fun _ => Nat.lt_of_le_of_ne hle hend, fun hc => ?_⟩
    · rw [wrote_append, hwhole]
    · exact absurd (hset.symm.trans (hclosed hc).1) Bool.noConfusion

/-- The state in which `onAccept` calls `onIdle`. -/
def accepted (s : FileSender) (content : QByteArray) (blocksize : Int) : FileSender :=
  { s with
    fileSend := some ((ReadFile.ofContent content).read bufSize).2
    blocksize
    buf := ((ReadFile.ofContent content).read bufSize).1
    pos := 0
    written := []
    closed := false }

/-- `onAccept` for a file opens it and runs the first idle slot. -/
theorem onAccept_eq (h : s.isFile = true) (content : QByteArray) (blocksize : Int) :
    s.onAccept content blocksize = (s.accepted content blocksize).onIdle := if_pos h

/-- At the acceptance nothing is written, and the whole file is left. -/
theorem sending_accepted (s : FileSender) (content : QByteArray) (blocksize : Int) :
    Sending content (s.accepted content blocksize) where
  whole :=
    ⟨_, rfl, ReadFile.read_append _ bufSize, ReadFile.unread_read_of_nil (by decide)⟩
  pos_le := Nat.zero_le _
  pos_lt hne := List.length_pos_iff.mpr hne
  closed_whole h := Bool.noConfusion h

/-- Every number of notifications keeps the transfer right. -/
theorem Sending.idles (h : Sending content s) (n : Nat) :
    Sending content (FileSender.onIdle^[n] s) := by
  induction n with
  | zero => exact h
  | succ n ih =>
    rw [Function.iterate_succ_apply']
    exact ih.onIdle

/-- The run lemma: the invariant holds after any number of idle slots. -/
theorem sending_afterIdles (hfile : s.isFile = true) (content : QByteArray) (blocksize : Int)
    (n : Nat) : Sending content (s.afterIdles content blocksize n) := by
  rw [afterIdles, onAccept_eq hfile]
  exact (sending_accepted s content blocksize).onIdle.idles n

/-- After every number of notifications, the blocks are the beginning of the file, the position
is within the buffer, and the channel is closed only when the blocks are the file. The block
size may be anything. -/
theorem file_sent_in_order (s : FileSender) (content : QByteArray) (blocksize : Int)
    (hfile : s.isFile = true) (n : Nat) :
    (s.afterIdles content blocksize n).written.flatten <+: content ∧
      (s.afterIdles content blocksize n).pos ≤ (s.afterIdles content blocksize n).buf.length ∧
      ((s.afterIdles content blocksize n).closed = true →
        (s.afterIdles content blocksize n).written.flatten = content) := by
  have hsend := sending_afterIdles hfile content blocksize n
  exact ⟨hsend.written_initial, hsend.pos_le, fun hc => (hsend.closed_whole hc).2⟩

/-- The window after the user has chosen to send a file. -/
def ready : FileSender :=
  { isFile := true, channel := true, fileSend := none, buf := [], blocksize := 0, pos := 0,
    written := [], closed := false }

/-- A file of five bytes in blocks of two. -/
theorem file_sent_in_order_five :
    (ready.afterIdles [1, 2, 3, 4, 5] 2 3).closed = true ∧
      (ready.afterIdles [1, 2, 3, 4, 5] 2 3).written.flatten = [1, 2, 3, 4, 5] := by
  have hclosed : (ready.afterIdles [1, 2, 3, 4, 5] 2 3).closed = true := by decide
  exact ⟨hclosed, (file_sent_in_order ready [1, 2, 3, 4, 5] 2 rfl 3).2.2 hclosed⟩

/-! ### The end of a transfer -/

/-- A block is not empty before the end of the buffer. -/
theorem length_mid_pos {buf : QByteArray} {pos : Nat} {len : Int} (hlen : 0 < len)
    (hpos : pos < buf.length) : 0 < (mid buf pos len).length := by
  rw [mid, if_neg (by omega), List.length_take, List.length_drop]
  omega

/-- As long as the transfer goes on, each notification has written a byte at least. -/
theorem Sending.progress (h : Sending content s) (hlen : 0 < s.blocksize) {n : Nat}
    (hn : s.closed = true ∨ s.channel = true ∧ n ≤ s.written.flatten.length) :
    s.onIdle.blocksize = s.blocksize ∧ (s.onIdle.closed = true ∨
      s.onIdle.channel = true ∧ n + 1 ≤ s.onIdle.written.flatten.length) := by
  obtain ⟨file, hfile, hwhole, hempty⟩ := h.whole
  -- What a write adds is the next piece of the buffer, which is not empty.
  have hwrote : s.wrote.written.flatten.length = s.written.flatten.length +
      (mid s.buf s.pos s.blocksize).length := by
    show (s.written ++ [_]).flatten.length = _
    rw [List.flatten_append, List.length_append, List.flatten_singleton]
  obtain ⟨hunset, heq⟩ | ⟨-, hbuf, -, heq⟩ | ⟨-, hbuf, hend, heq⟩ | ⟨hset, hbuf, -, heq⟩ |
    ⟨hset, hbuf, -, heq⟩ := onIdle_cases hfile
  · -- `m_channel` is null only after the transfer was closed.
    rw [heq]
    refine ⟨rfl, hn.imp_right fun ⟨hset, _⟩ => ?_⟩
    exact absurd (hset.symm.trans hunset) Bool.noConfusion
  · rw [heq]
    exact ⟨rfl, Or.inl rfl⟩
  · -- An empty buffer before the end of the file does not happen.
    have hatEnd := (ReadFile.atEnd_iff file).mpr (hempty hbuf)
    exact absurd (hatEnd.symm.trans hend) Bool.noConfusion
  · have hmid := length_mid_pos hlen (h.pos_lt hbuf)
    rw [heq]
    refine ⟨rfl, hn.imp_right fun ⟨_, hle⟩ => ⟨hset, ?_⟩⟩
    show n + 1 ≤ s.wrote.written.flatten.length
    rw [hwrote]
    omega
  · have hmid := length_mid_pos hlen (h.pos_lt hbuf)
    rw [heq]
    refine ⟨rfl, hn.imp_right fun ⟨_, hle⟩ => ⟨hset, ?_⟩⟩
    rw [hwrote]
    omega

/-- With a positive block size, as many notifications as the file has bytes are enough. -/
theorem closed_of_idles {blocksize : Int} (hfile : s.isFile = true) (hset : s.channel = true)
    (hlen : 0 < blocksize) {n : Nat} (hn : content.length ≤ n) :
    (s.afterIdles content blocksize n).closed = true := by
  have hprog : ∀ k, (s.afterIdles content blocksize k).blocksize = blocksize ∧
      ((s.afterIdles content blocksize k).closed = true ∨
        (s.afterIdles content blocksize k).channel = true ∧
          k + 1 ≤ (s.afterIdles content blocksize k).written.flatten.length) := by
    intro k
    induction k with
    | zero =>
      rw [afterIdles, Function.iterate_zero, id, onAccept_eq hfile]
      exact (sending_accepted s content blocksize).progress hlen (Or.inr ⟨hset, Nat.zero_le _⟩)
    | succ k ih =>
      have hsend := sending_afterIdles hfile content blocksize k
      have hstep := hsend.progress (by rw [ih.1]; exact hlen) ih.2
      rw [ih.1] at hstep
      rw [afterIdles, Function.iterate_succ_apply']
      exact hstep
  -- More bytes than the file has cannot have been written.
  have hpre := (sending_afterIdles hfile content blocksize n).written_initial.length_le
  rcases (hprog n).2 with hc | ⟨-, hle⟩
  · exact hc
  · omega

end FileSender

end EChannel.App

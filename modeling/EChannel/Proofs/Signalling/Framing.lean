import EChannel.Signalling.Connection

/-!
# `EChannel.Proofs.Signalling.Framing`: the decoder reads the greedy parse

`greedyParse` is the reference reading of a byte stream: a frame is eight header bytes
(16-bit type, 16-bit length, both big-endian, four ignored bytes) and as many payload bytes
as the length says; frames are cut off the front as long as one is complete. What is left is
the unparsed suffix.

`decoderOf` says which decoder fields stand for an unparsed suffix: a suffix shorter than a
header sits in the buffer, a longer one has its header in the two integers.

`onRead_decoderOf` is the step: on a decoder that stands for the suffix `u`, `onRead` of a
chunk emits the frames of `u ++ chunk` and leaves the decoder of what is left. The run
theorem `onReads_eq_greedyParse` follows by induction over the chunks. The round trip of
`addSendTask` through the decoder is `roundTrips_iff`: it holds exactly when every payload
fits the 16-bit length field.
-/

set_option autoImplicit false

namespace EChannel.Signalling

/-! ### The reference parse -/

/-- The first frame of a stream and what follows it, if the frame is complete. -/
def nextFrame : QByteArray → Option (RecvData × QByteArray)
  | t₁ :: t₀ :: l₁ :: l₀ :: _ :: _ :: _ :: _ :: rest =>
    if (word l₁ l₀).toNat ≤ rest.length then
      some ({ type := (word t₁ t₀).toNat, length := (word l₁ l₀).toNat,
              payload := rest.take (word l₁ l₀).toNat },
        rest.drop (word l₁ l₀).toNat)
    else none
  | _ => none

/-- A frame takes at least its header off the stream. -/
theorem nextFrame_length_lt {s rest : QByteArray} {f : RecvData}
    (h : nextFrame s = some (f, rest)) : rest.length < s.length := by
  unfold nextFrame at h
  split at h
  · split at h
    · obtain ⟨-, rfl⟩ := Prod.mk.inj (Option.some.inj h)
      simp only [List.length_drop, List.length_cons]
      omega
    · cases h
  · cases h

/-- The greedy parse of a stream: its complete frames in order and the unparsed suffix. -/
def greedyParse (s : QByteArray) : List RecvData × QByteArray :=
  match _h : nextFrame s with
  | none => ([], s)
  | some (f, rest) =>
    let t := greedyParse rest
    (f :: t.1, t.2)
termination_by s.length
decreasing_by exact nextFrame_length_lt _h

/-- Without a whole frame nothing is parsed. -/
theorem greedyParse_of_none {s : QByteArray} (h : nextFrame s = none) :
    greedyParse s = ([], s) := by
  rw [greedyParse]
  split
  · rfl
  · rename_i hsome
    rw [h] at hsome
    cases hsome

/-- The first frame is parsed, and then the rest. -/
theorem greedyParse_of_some {s rest : QByteArray} {f : RecvData}
    (h : nextFrame s = some (f, rest)) :
    greedyParse s = (f :: (greedyParse rest).1, (greedyParse rest).2) := by
  rw [greedyParse]
  split
  · rename_i hnone
    rw [h] at hnone
    cases hnone
  · rename_i f' rest' hsome
    rw [h] at hsome
    obtain ⟨rfl, rfl⟩ := Prod.mk.inj (Option.some.inj hsome)
    rfl

/-- The suffix that the greedy parse leaves holds no complete frame. -/
theorem nextFrame_greedyParse (s : QByteArray) : nextFrame (greedyParse s).2 = none := by
  induction s using greedyParse.induct with
  | case1 s h => rw [greedyParse_of_none h]; exact h
  | case2 s f rest h ih => rw [greedyParse_of_some h]; exact ih

/-- A complete frame stays the first frame when bytes arrive after it. -/
theorem nextFrame_append {s rest : QByteArray} {f : RecvData} (t : QByteArray)
    (h : nextFrame s = some (f, rest)) : nextFrame (s ++ t) = some (f, rest ++ t) := by
  unfold nextFrame at h
  split at h
  · split at h
    · rename_i hlen
      obtain ⟨rfl, rfl⟩ := Prod.mk.inj (Option.some.inj h)
      simp only [List.cons_append, nextFrame, List.length_append]
      rw [if_pos (by omega), List.take_append_of_le_length hlen,
        List.drop_append_of_le_length hlen]
    · cases h
  · cases h

/-- Parsing in two portions: the suffix of the first portion is read again in front of the
second. -/
theorem greedyParse_append (s t : QByteArray) :
    greedyParse (s ++ t) =
      ((greedyParse s).1 ++ (greedyParse ((greedyParse s).2 ++ t)).1,
        (greedyParse ((greedyParse s).2 ++ t)).2) := by
  induction s using greedyParse.induct with
  | case1 s h => rw [greedyParse_of_none h]; rfl
  | case2 s f rest h ih =>
    rw [greedyParse_of_some h, greedyParse_of_some (nextFrame_append t h), ih]
    rfl

/-! ### The decoder stands for the unparsed suffix -/

/-- The decoder fields that stand for an unparsed suffix. -/
def decoderOf : QByteArray → Connection
  | t₁ :: t₀ :: l₁ :: l₀ :: _ :: _ :: _ :: _ :: rest =>
    { buffer := rest, numBytesForCurrentDataType := (word l₁ l₀).toNat,
      currentDataType := (word t₁ t₀).toNat }
  | s => { buffer := s, numBytesForCurrentDataType := -1, currentDataType := -1 }

/-- The decoder with no header pending and the bytes `s` in its buffer. -/
def unread (s : QByteArray) : Connection :=
  { buffer := s, numBytesForCurrentDataType := -1, currentDataType := -1 }

/-- Fewer than 8 bytes are kept as they are. -/
theorem decoderOf_of_short {s : QByteArray} (h : s.length < 8) : decoderOf s = unread s := by
  unfold decoderOf
  split
  · simp only [List.length_cons] at h
    omega
  · rfl

/-- Fewer than 8 bytes hold no frame. -/
theorem nextFrame_of_short {s : QByteArray} (h : s.length < 8) : nextFrame s = none := by
  unfold nextFrame
  split
  · simp only [List.length_cons] at h
    omega
  · rfl

/-- A stream with a full header, byte by byte. -/
theorem exists_header {s : QByteArray} (h : 8 ≤ s.length) :
    ∃ t₁ t₀ l₁ l₀ u₃ u₂ u₁ u₀ rest, s = t₁ :: t₀ :: l₁ :: l₀ :: u₃ :: u₂ :: u₁ :: u₀ :: rest := by
  match s, h with
  | t₁ :: t₀ :: l₁ :: l₀ :: u₃ :: u₂ :: u₁ :: u₀ :: rest, _ =>
    exact ⟨t₁, t₀, l₁, l₀, u₃, u₂, u₁, u₀, rest, rfl⟩

/-- The header step of `hasEnoughData` turns an unread buffer into the decoder of its
bytes. -/
theorem withHeader_unread (s : QByteArray) : (unread s).withHeader = decoderOf s := by
  by_cases h : s.length < 8
  · rw [decoderOf_of_short h]
    simp [Connection.withHeader, Connection.parseHeader, unread, h]
  · obtain ⟨t₁, t₀, l₁, l₀, u₃, u₂, u₁, u₀, rest, rfl⟩ := exists_header (by omega : 8 ≤ s.length)
    have hneg : ¬ (t₁ :: t₀ :: l₁ :: l₀ :: u₃ :: u₂ :: u₁ :: u₀ :: rest).length < 8 := h
    simp only [Connection.withHeader, Connection.parseHeader, unread, hneg, if_false]
    rfl

/-- Bytes that arrive extend the stream that the decoder stands for. -/
theorem withHeader_append (u chunk : QByteArray) :
    ({ decoderOf u with buffer := (decoderOf u).buffer ++ chunk } : Connection).withHeader
      = decoderOf (u ++ chunk) := by
  by_cases h : u.length < 8
  · rw [decoderOf_of_short h]
    exact withHeader_unread (u ++ chunk)
  · obtain ⟨t₁, t₀, l₁, l₀, u₃, u₂, u₁, u₀, rest, rfl⟩ := exists_header (by omega : 8 ≤ u.length)
    -- The header is pending in the two integers, and the new bytes belong to the payload.
    have hpending : ¬ ((word l₁ l₀).toNat : Int) < 0 := by omega
    simp only [Connection.withHeader, decoderOf, List.cons_append, hpending, if_false]

/-- The decoder of a stream has its payload exactly when the stream starts with a complete
frame. -/
theorem payloadReady_decoderOf (u : QByteArray) :
    (decoderOf u).payloadReady = (nextFrame u).isSome := by
  by_cases h : u.length < 8
  · rw [decoderOf_of_short h, nextFrame_of_short h]
    simp [Connection.payloadReady, unread]
  · obtain ⟨t₁, t₀, l₁, l₀, u₃, u₂, u₁, u₀, rest, rfl⟩ := exists_header (by omega : 8 ≤ u.length)
    by_cases hlen : (word l₁ l₀).toNat ≤ rest.length
    · simp [Connection.payloadReady, decoderOf, nextFrame, hlen]
    · simp [Connection.payloadReady, decoderOf, nextFrame, hlen]

/-- `processData` takes the first frame off the stream and emits it. -/
theorem processData_decoderOf {u rest : QByteArray} {f : RecvData}
    (h : nextFrame u = some (f, rest)) :
    (decoderOf u).processData = (unread rest, f) := by
  unfold nextFrame at h
  split at h
  · split at h
    · obtain ⟨rfl, rfl⟩ := Prod.mk.inj (Option.some.inj h)
      simp [Connection.processData, decoderOf, unread]
    · cases h
  · cases h

/-- The read loop emits the complete frames of the stream that the decoder stands for, and
leaves the decoder of the unparsed suffix. The induction is on the frames of the stream. -/
theorem onReadLoop_eq (u : QByteArray) :
    ∀ c : Connection, c.withHeader = decoderOf u →
      c.onReadLoop = (decoderOf (greedyParse u).2, (greedyParse u).1) := by
  induction u using greedyParse.induct with
  | case1 u h =>
    intro c hc
    have hready : c.hasEnoughData.2 = false := by
      simp [Connection.hasEnoughData, hc, payloadReady_decoderOf, h]
    rw [Connection.onReadLoop, greedyParse_of_none h, dif_neg (by simp [hready])]
    simp [Connection.hasEnoughData, hc]
  | case2 u f rest h ih =>
    intro c hc
    have hready : c.hasEnoughData.2 = true := by
      simp [Connection.hasEnoughData, hc, payloadReady_decoderOf, h]
    have hdata : c.hasEnoughData.1.processData = (unread rest, f) := by
      rw [Connection.hasEnoughData, hc]
      exact processData_decoderOf h
    rw [Connection.onReadLoop, greedyParse_of_some h, dif_pos hready]
    simp only [hdata]
    by_cases hlen : 8 ≤ (unread rest).buffer.length
    · rw [if_pos hlen, ih (unread rest) (withHeader_unread rest)]
    · -- The loop condition is false, so less than a header is left and no frame either.
      have hshort : rest.length < 8 := by simpa [unread] using hlen
      rw [if_neg hlen, greedyParse_of_none (nextFrame_of_short hshort),
        decoderOf_of_short hshort]

/-- One `onRead` on the decoder of `u`: it emits the complete frames of `u ++ chunk` and
leaves the decoder of the suffix. -/
theorem onRead_decoderOf (u chunk : QByteArray) (hu : nextFrame u = none) :
    (decoderOf u).onRead true chunk =
      some (decoderOf (greedyParse (u ++ chunk)).2, (greedyParse (u ++ chunk)).1) := by
  cases chunk with
  -- `onRead` returns at once when nothing was read, so `u` itself must hold no frame.
  | nil => simp [Connection.onRead, greedyParse_of_none hu]
  | cons b bs =>
    have hne : ¬ (b :: bs).length = 0 := by simp
    simp only [Connection.onRead, hne, not_true_eq_false, if_false]
    rw [onReadLoop_eq (u ++ b :: bs) _ (withHeader_append u (b :: bs))]

/-! ### Any segmentation gives the greedy parse -/

/-- A run of `onRead` calls from the decoder of `u`. The three parts are the final decoder,
the emissions of all calls, and the emissions of each single call: those are the frames that
the chunk of the call completes. -/
theorem onReads_decoderOf (chunks : List QByteArray) :
    ∀ u : QByteArray, nextFrame u = none →
      ((decoderOf u).onReads chunks).1 = decoderOf (greedyParse (u ++ chunks.flatten)).2 ∧
      ((decoderOf u).onReads chunks).2.flatten = (greedyParse (u ++ chunks.flatten)).1 ∧
      ∀ pre chunk post, chunks = pre ++ chunk :: post →
        ∃ emitted, ((decoderOf u).onReads chunks).2[pre.length]? = some emitted ∧
          (greedyParse (u ++ (pre ++ [chunk]).flatten)).1
            = (greedyParse (u ++ pre.flatten)).1 ++ emitted := by
  induction chunks with
  | nil =>
    intro u hu
    refine ⟨?_, ?_, ?_⟩
    · simp [Connection.onReads, greedyParse_of_none hu]
    · simp [Connection.onReads, greedyParse_of_none hu]
    · intro pre chunk post h
      simp at h
  | cons chunk rest ih =>
    intro u hu
    -- The rest of the chunks starts from the decoder of what this chunk leaves.
    obtain ⟨ihState, ihAll, ihCall⟩ :=
      ih (greedyParse (u ++ chunk)).2 (nextFrame_greedyParse (u ++ chunk))
    have happ := greedyParse_append (u ++ chunk)
    simp only [Connection.onReads, onRead_decoderOf u chunk hu, List.flatten_cons,
      ← List.append_assoc]
    refine ⟨?_, ?_, ?_⟩
    · rw [happ, ihState]
    · rw [happ, ihAll]
    · intro pre c post h
      cases pre with
      | nil =>
        obtain ⟨rfl, rfl⟩ := List.cons.inj h
        exact ⟨_, rfl, by simp [greedyParse_of_none hu]⟩
      | cons p pre =>
        obtain ⟨rfl, hrest⟩ := List.cons.inj h
        obtain ⟨emitted, hget, heq⟩ := ihCall pre c post hrest
        refine ⟨emitted, by simpa using hget, ?_⟩
        simp only [List.cons_append, List.flatten_cons, ← List.append_assoc]
        rw [happ, happ, heq, List.append_assoc]

/-- Frame decoding does not depend on how TCP cuts the stream. Whatever the chunks are, the
emissions of all `onRead` calls on a fresh connection are the greedy parse of the whole
stream, each call emits the frames that its own chunk completes, and the fields at the end
are those of the unparsed suffix, which holds no complete frame. -/
theorem onReads_eq_greedyParse (chunks : List QByteArray) :
    (Connection.fresh.onReads chunks).2.flatten = (greedyParse chunks.flatten).1 ∧
    (∀ pre chunk post, chunks = pre ++ chunk :: post →
      ∃ emitted, (Connection.fresh.onReads chunks).2[pre.length]? = some emitted ∧
        (greedyParse (pre ++ [chunk]).flatten).1 = (greedyParse pre.flatten).1 ++ emitted) ∧
    (Connection.fresh.onReads chunks).1 = decoderOf (greedyParse chunks.flatten).2 ∧
    nextFrame (greedyParse chunks.flatten).2 = none := by
  obtain ⟨hstate, hall, hcall⟩ := onReads_decoderOf chunks [] rfl
  exact ⟨hall, hcall, hstate, nextFrame_greedyParse _⟩

/-! ### The round trip of `addSendTask` -/

/-- The two overloads of `addSendTask`. -/
inductive Overload
  | string
  | raw
  deriving DecidableEq, Repr

/-- A message as the callers of `addSendTask` send it. -/
structure Message where
  overload : Overload
  type : UInt16
  payload : QByteArray

/-- The `int` that a `size_t` argument becomes. -/
def sizeToInt (n : Nat) : Int := Int.bmod n 4294967296

/-- The call of `addSendTask` for a message, with the size of the payload as `length`. -/
def Message.send (pSocket : TcpSocket) (m : Message) : TcpSocket :=
  match m.overload with
  | .string => addSendTask pSocket m.type.toNat (sizeToInt m.payload.length) m.payload
  | .raw => (addSendTaskRaw pSocket m.type.toNat (sizeToInt m.payload.length) m.payload).1

/-- The signal that a faithful decoder emits for a message. -/
def Message.recvData (m : Message) : RecvData :=
  { type := m.type.toNat, length := m.payload.length, payload := m.payload }

/-- Sending the messages on a fresh socket and feeding the bytes into a fresh connection
emits the messages in order and leaves the connection fresh: empty buffer, no header
pending. -/
def RoundTrips (msgs : List Message) : Prop :=
  ∃ out, msgs.foldl Message.send (some []) = some out ∧
    Connection.fresh.onRead true out = some (Connection.fresh, msgs.map Message.recvData)

/-- A 16-bit value is put together from its bytes. -/
theorem word_hiByte_loByte (x : UInt16) : word (hiByte x) (loByte x) = x := by
  apply UInt16.toNat_inj.mp
  have hx := x.toNat_lt
  simp only [word, hiByte, loByte, UInt16.toNat_ofNat', UInt8.toNat_ofNat']
  omega

/-- The high byte of a value that was put together. -/
theorem hiByte_word (hi lo : UInt8) : hiByte (word hi lo) = hi := by
  apply UInt8.toNat_inj.mp
  have hhi := hi.toNat_lt
  have hlo := lo.toNat_lt
  simp only [word, hiByte, UInt16.toNat_ofNat', UInt8.toNat_ofNat']
  omega

/-- The low byte of a value that was put together. -/
theorem loByte_word (hi lo : UInt8) : loByte (word hi lo) = lo := by
  apply UInt8.toNat_inj.mp
  have hhi := hi.toNat_lt
  have hlo := lo.toNat_lt
  simp only [word, loByte, UInt16.toNat_ofNat', UInt8.toNat_ofNat']
  omega

/-- `Ntoh` and the `memcpy` put the header on the wire in big-endian order. -/
theorem toBytes_ntoh (cmd length : UInt16) :
    ({ cmd, length, unused := 0 } : MGWHead).ntoh.toBytes
      = [hiByte cmd, loByte cmd, hiByte length, loByte length, 0, 0, 0, 0] := by
  simp [MGWHead.ntoh, MGWHead.toBytes, qToBigEndian, hiByte_word, loByte_word]

/-- A payload whose size fits the length field goes out whole behind its header. -/
theorem sendBuf_of_lt (type : UInt16) (payload : QByteArray) (h : payload.length < 65536) :
    sendBuf type.toNat (sizeToInt payload.length) payload =
      [hiByte type, loByte type, hiByte (UInt16.ofNat payload.length),
        loByte (UInt16.ofNat payload.length), 0, 0, 0, 0] ++ payload := by
  have hsize : sizeToInt payload.length = payload.length := by
    unfold sizeToInt
    rw [Int.bmod_eq_of_le] <;> omega
  have htype : UInt16.ofNat ((type.toNat : Int) % 65536).toNat = type := by
    have := type.toNat_lt
    apply UInt16.toNat_inj.mp
    rw [UInt16.toNat_ofNat']
    omega
  have hlen : ((payload.length : Int) % 65536).toNat = payload.length := by omega
  rw [sendBuf, hsize, htype, hlen, toBytes_ntoh, qAppend, if_neg (by omega)]
  simp

/-- A message of fitting size is the first frame of any stream that starts with its
packet. -/
theorem nextFrame_sendBuf (m : Message) (rest : QByteArray) (h : m.payload.length < 65536) :
    nextFrame (sendBuf m.type.toNat (sizeToInt m.payload.length) m.payload ++ rest)
      = some (m.recvData, rest) := by
  have hlen : (UInt16.ofNat m.payload.length).toNat = m.payload.length := by
    rw [UInt16.toNat_ofNat']
    omega
  rw [sendBuf_of_lt m.type m.payload h]
  simp [nextFrame, word_hiByte_loByte, hlen, Message.recvData]

/-- The bytes on the wire: the packets one after the other. Both overloads write the same
packet. -/
theorem foldl_send (msgs : List Message) (out : QByteArray) :
    msgs.foldl Message.send (some out) =
      some (out ++ msgs.flatMap fun m =>
        sendBuf m.type.toNat (sizeToInt m.payload.length) m.payload) := by
  induction msgs generalizing out with
  | nil => simp
  | cons m msgs ih =>
    have hsend : m.send (some out) =
        some (out ++ sendBuf m.type.toNat (sizeToInt m.payload.length) m.payload) := by
      cases ho : m.overload <;> simp only [Message.send, ho, addSendTask, addSendTaskRaw]
    rw [List.foldl_cons, hsend, ih, List.flatMap_cons, List.append_assoc]

/-- The greedy parse of the packets is the list of messages, with nothing left over. -/
theorem greedyParse_flatMap_sendBuf (msgs : List Message)
    (h : ∀ m ∈ msgs, m.payload.length < 65536) :
    greedyParse (msgs.flatMap fun m =>
        sendBuf m.type.toNat (sizeToInt m.payload.length) m.payload)
      = (msgs.map Message.recvData, []) := by
  induction msgs with
  | nil => exact greedyParse_of_none rfl
  | cons m msgs ih =>
    rw [List.flatMap_cons, greedyParse_of_some (nextFrame_sendBuf m _ (h m (by simp))),
      ih fun m' hm' => h m' (by simp [hm'])]
    rfl

/-- Every emitted length fits the 16-bit field it was read from. -/
theorem length_lt_of_mem_greedyParse (s : QByteArray) :
    ∀ f ∈ (greedyParse s).1, f.length < 65536 := by
  induction s using greedyParse.induct with
  | case1 s h => simp [greedyParse_of_none h]
  | case2 s f rest h ih =>
    intro f' hf'
    rw [greedyParse_of_some h] at hf'
    rcases List.mem_cons.mp hf' with rfl | hmem
    · unfold nextFrame at h
      split at h
      · rename_i l₁ l₀ _ _ _ _ _
        split at h
        · obtain ⟨rfl, -⟩ := Prod.mk.inj (Option.some.inj h)
          have := (word l₁ l₀).toNat_lt
          show ((word l₁ l₀).toNat : Int) < 65536
          omega
        · cases h
      · cases h
    · exact ih f' hmem

/-- A single `onRead` on a fresh connection is the greedy parse of the bytes. -/
theorem onRead_fresh (s : QByteArray) :
    Connection.fresh.onRead true s
      = some (decoderOf (greedyParse s).2, (greedyParse s).1) :=
  onRead_decoderOf [] s rfl

/-- A message that comes back was not longer than the length field can say. -/
theorem length_lt_of_roundTrips {msgs : List Message} (h : RoundTrips msgs) :
    ∀ m ∈ msgs, m.payload.length < 65536 := by
  obtain ⟨out, -, hout⟩ := h
  intro m hm
  rw [onRead_fresh] at hout
  obtain ⟨-, hframes⟩ := Prod.mk.inj (Option.some.inj hout)
  have hmem : m.recvData ∈ (greedyParse out).1 := by
    rw [hframes]
    exact List.mem_map_of_mem hm
  have hlt := length_lt_of_mem_greedyParse out _ hmem
  simp only [Message.recvData] at hlt
  omega

/-- The messages survive the trip through `addSendTask` and `onRead` exactly when every
payload is shorter than `2 ^ 16` bytes. -/
theorem roundTrips_iff (msgs : List Message) :
    RoundTrips msgs ↔ ∀ m ∈ msgs, m.payload.length < 65536 := by
  refine ⟨length_lt_of_roundTrips, fun h => ?_⟩
  refine ⟨_, foldl_send msgs [], ?_⟩
  rw [List.nil_append, onRead_fresh, greedyParse_flatMap_sendBuf msgs h]
  rfl

/-- A single payload of `2 ^ 16` bytes does not come back: its header announces length 0. -/
theorem not_roundTrips_oversized :
    ¬ RoundTrips [⟨.string, 1, List.replicate 65536 0⟩] := by
  intro h
  have hlt := length_lt_of_roundTrips h _ List.mem_cons_self
  rw [List.length_replicate] at hlt
  exact Nat.lt_irrefl _ hlt

end EChannel.Signalling

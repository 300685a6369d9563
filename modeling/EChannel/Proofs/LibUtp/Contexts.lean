import EChannel.LibUtp.Context
import EChannel.Proofs.LibUtp.HashTable
import EChannel.Proofs.LibUtp.Runs

/-!
# `EChannel.Proofs.LibUtp.Contexts`: the sockets of a context

`Ok ctx m n` is what holds of a context between two steps: its table stands for the map `m`, each
socket there keeps `Inv` and has the receive id of its key, and `last_utp_socket` points into the
table. Every step keeps it, so the context never uses a deleted socket and never finds a wrong one.

A datagram changes at most one socket, which is one of its sender. `utp_check_timeouts` checks
each socket once, although it deletes sockets while it goes through the table.
-/

set_option autoImplicit false

namespace EChannel.LibUtp

/-! ### One socket -/

/-- A step keeps the connection ids. -/
theorem FrameSocket.Step.ids {p : Option Segment} {s s' : FrameSocket} (hs : Step p s s') :
    s'.ids = s.ids := by
  cases hs <;> rfl

/-- Any number of steps keep the connection ids. -/
theorem FrameSocket.Steps.ids {p : Option Segment} {s s' : FrameSocket} (hs : Steps p s s') :
    s'.ids = s.ids := by
  induction hs with
  | refl => rfl
  | tail _ hstep ih => exact hstep.ids.trans ih

/-- A socket between two calls that has the receive id of its key. -/
def SocketOk (key : UTPSocketKey) (c : Conn) : Prop := ∃ s, Inv c s ∧ s.ids.1 = key.recvId

namespace SocketOk

variable {key : UTPSocketKey} {c : Conn}

/-- A socket is stored under the id that it receives with. -/
theorem connIdRecv (h : SocketOk key c) : c.connIdRecv = key.recvId := by
  obtain ⟨s, hinv, hid⟩ := h
  exact (congrArg Prod.fst hinv.rep.ids).trans hid

/-- Other sockets may have read the clock. -/
theorem clock (h : SocketOk key c) (ms : UInt64) : SocketOk key { c with currentMs := ms } := by
  obtain ⟨s, hinv, hid⟩ := h
  have hrep : Rep { c with currentMs := ms } s := { hinv.rep with }
  exact ⟨s, Conn.inv_of_rep hinv hrep rfl, hid⟩

/-- An event on a socket keeps it in order. -/
theorem handle (h : SocketOk key c) (env : Env) (e : Event) : SocketOk key (c.handle env e) := by
  obtain ⟨s, hinv, hid⟩ := h
  obtain ⟨p, s', -, hs, h'⟩ := Conn.handle_inv env hinv e
  exact ⟨s', h', hs.ids ▸ hid⟩

/-- A socket that connects is in order under the id that was drawn for it. -/
theorem utpConnect (env : Env) (addr : PackedSockAddr) (connSeed seqNr : UInt16) :
    SocketOk ⟨addr, connSeed.toUInt32⟩ (.utpConnect env connSeed seqNr) := by
  obtain ⟨d, -, h⟩ := Conn.utpConnect_inv env connSeed seqNr
  exact ⟨_, h, rfl⟩

/-- An accepted socket is in order under the id after that of the SYN. -/
theorem accept {env : Env} {packet rest : List UInt8} {beyond : UInt8} {seqNr : UInt16}
    {pf : PacketFormatV1} (hdec : PacketFormatV1.decode packet = some (pf, rest))
    (hacc : Conn.accept env packet beyond seqNr = some c) (addr : PackedSockAddr) :
    SocketOk ⟨addr, pf.connid.toUInt32 + 1⟩ c := by
  obtain ⟨pf', rest', s, hdec', -, hs, h⟩ := Conn.accept_inv env hacc
  rw [hdec] at hdec'
  obtain ⟨rfl, rfl⟩ := Prod.mk.inj (Option.some.inj hdec')
  exact ⟨s, h, congrArg Prod.fst hs.ids⟩

end SocketOk

namespace UtpContext

/-! ### The table -/

/-- What holds between two steps of a context whose table stands for `m`. -/
structure Ok (ctx : UtpContext) (m : UTPSocketKey → Option Conn) (n : Nat) : Prop where
  table : ∃ chains freeList, ctx.utpSockets.Rep chains [] freeList m
  room : ctx.utpSockets.count ≤ n
  socket : ∀ key c, m key = some c → SocketOk key c
  last : ∀ key, ctx.lastUtpSocket = some key → (m key).isSome
  fault : ctx.fault = false

variable {ctx : UtpContext} {m : UTPSocketKey → Option Conn} {n : Nat} {key : UTPSocketKey}
  {c : Conn}

/-- A new context has no socket. -/
theorem init_ok (hashCompute : UTPSocketKey → UInt32) (lastCheck : UInt64) :
    Ok (init hashCompute lastCheck) (fun _ => none) 0 := by
  constructor
  case table => exact ⟨_, _, UtpHash.Rep.create hashCompute (by decide) (by decide)⟩
  case room => exact Nat.le_refl 0
  case socket => exact fun _ _ hno => by cases hno
  case last => exact fun _ hno => by cases hno
  case fault => rfl

/-- One socket changes. -/
theorem socketOk_put {v : Option Conn} (h : ∀ k c, m k = some c → SocketOk k c)
    (hv : ∀ c, v = some c → SocketOk key c) (k : UTPSocketKey) (c : Conn)
    (hk : (if k = key then v else m k) = some c) : SocketOk k c := by
  split at hk
  · rename_i heq
    exact heq ▸ hv c hk
  · exact h k c hk

/-- Without a socket nothing changes. -/
theorem put_of_none (hm : m key = none) (f : Conn → Conn) :
    (fun k => if k = key then (m key).map f else m k) = m := by
  funext k
  split
  · rename_i heq
    rw [heq, hm]
    rfl
  · rfl

/-- A key that is in the map stays in it when an entry is put. -/
theorem isSome_put {k : UTPSocketKey} (h : (m k).isSome) (c : Conn) :
    (if k = key then some c else m k).isSome := by
  split
  · rfl
  · exact h

namespace Ok

/-- The hash table is the map. -/
theorem lookup_eq (h : Ok ctx m n) (key : UTPSocketKey) : ctx.utpSockets.lookup key = m key := by
  obtain ⟨chains, freeList, hr⟩ := h.table
  exact hr.lookup_eq key

/-- The value of a socket that is there changes. -/
theorem setValue (h : Ok ctx m n) (hm : m key = some c) {c' : Conn} (hc : SocketOk key c')
    (ms : UInt64) :
    Ok { ctx with currentMs := ms, utpSockets := ctx.utpSockets.setValue key c' }
      (fun k => if k = key then some c' else m k) n := by
  obtain ⟨chains, freeList, hr⟩ := h.table
  constructor
  case table => exact ⟨chains, freeList, (hr.setValue hm c').2⟩
  case room =>
    show (ctx.utpSockets.setValue key c').count ≤ n
    rw [UtpHash.setValue_count]
    exact h.room
  case socket => exact socketOk_put h.socket fun c'' hc'' => Option.some.inj hc'' ▸ hc
  case last => exact fun k hk => isSome_put (h.last k hk) c'
  case fault => exact h.fault

/-- The socket of `key` handles an event, if it is there. -/
theorem on (h : Ok ctx m n) (env : Env) (key : UTPSocketKey) (e : Event) :
    Ok (ctx.on key fun c => c.handle env e)
      (fun k => if k = key then
        (m key).map fun c => ({ c with currentMs := ctx.currentMs } : Conn).handle env e
      else m k) n := by
  unfold UtpContext.on
  rw [h.lookup_eq]
  cases hm : m key with
  | none =>
    have hsame := put_of_none hm fun c =>
      ({ c with currentMs := ctx.currentMs } : Conn).handle env e
    rw [hm] at hsame
    rw [hsame]
    exact h
  | some c => exact h.setValue hm (((h.socket key c hm).clock ctx.currentMs).handle env e) _

/-- A socket comes into the table under a key that is not in use. -/
theorem add (h : Ok ctx m n) (hm : m key = none) (hc : SocketOk key c)
    (hroom : ctx.utpSockets.count < libutpHashUnused) {n' : Nat}
    (hn : ctx.utpSockets.count < n') :
    Ok (ctx.add key c) (fun k => if k = key then some c else m k) n' := by
  obtain ⟨chains, freeList, hr⟩ := h.table
  obtain ⟨table, chains', freeList', hadd, -, hcount, hr'⟩ := UtpHash.add_of_none hr hm c hroom
  unfold UtpContext.add
  rw [hadd]
  constructor
  case table => exact ⟨chains', freeList', hr'⟩
  case room =>
    show table.count ≤ n'
    rw [hcount]
    exact hn
  case socket => exact socketOk_put h.socket fun c' hc' => Option.some.inj hc' ▸ hc
  case last => exact fun k hk => isSome_put (h.last k hk) c
  case fault => exact h.fault

end Ok

/-! ### Connections -/

/-- `utp_connect` takes an id that no socket of this peer has. -/
theorem connect_ok (h : Ok ctx m n) (hroom : n < libutpHashUnused) (env : Env)
    (addr : PackedSockAddr) (draws : List UInt32) (seqNr : UInt16) :
    ∃ m', Ok (ctx.connect env addr draws seqNr) m' (n + 1) := by
  dsimp only [connect]
  split
  · exact ⟨m, { h with room := Nat.le_succ_of_le h.room }⟩
  · rename_i seed hfind
    have hfree := List.find?_some hfind
    rw [h.lookup_eq, Option.isNone_iff_eq_none] at hfree
    exact ⟨_, h.add hfree (SocketOk.utpConnect env addr seed seqNr)
      (Nat.lt_of_le_of_lt h.room hroom) (Nat.lt_succ_of_le h.room)⟩

/-- The search of the table finds what the map has, and notes it. -/
theorem findSlow_eq (h : Ok ctx m n) (addr : PackedSockAddr) (id : UInt32) :
    ∃ last, ctx.findSlow addr id = ({ ctx with lastUtpSocket := last },
        if (m ⟨addr, id⟩).isSome then some ⟨addr, id⟩ else none) ∧
      ∀ key, last = some key → (m key).isSome := by
  unfold findSlow
  rw [h.lookup_eq]
  cases hm : m ⟨addr, id⟩ with
  | none => exact ⟨ctx.lastUtpSocket, rfl, h.last⟩
  | some c =>
    refine ⟨some ⟨addr, id⟩, rfl, fun key hkey => ?_⟩
    rw [← Option.some.inj hkey, hm]
    rfl

/-- `last_utp_socket` makes no difference to what is found. -/
theorem find_eq (h : Ok ctx m n) (addr : PackedSockAddr) (id : UInt32) :
    ∃ last, ctx.find addr id = ({ ctx with lastUtpSocket := last },
        if (m ⟨addr, id⟩).isSome then some ⟨addr, id⟩ else none) ∧
      ∀ key, last = some key → (m key).isSome := by
  have hslow := findSlow_eq h addr id
  unfold find
  cases hlast : ctx.lastUtpSocket with
  | none => exact hslow
  | some last =>
    obtain ⟨c, hm⟩ := Option.isSome_iff_exists.mp (h.last last hlast)
    dsimp only
    rw [h.lookup_eq, hm]
    dsimp only
    split
    · rename_i hcond
      have hkey : last = ⟨addr, id⟩ := by
        rw [(h.socket last c hm).connIdRecv] at hcond
        obtain ⟨rfl, rfl⟩ := hcond
        rfl
      refine ⟨some last, ?_, fun key heq => h.last key (hlast.trans heq)⟩
      rw [← hkey, hm, if_pos (show (some c).isSome = true from rfl), ← hlast]
    · exact hslow

/-! ### Packets -/

/-- A packet that belongs to nobody changes no socket. -/
theorem rejectUnknown_ok (h : Ok ctx m n) (addr : PackedSockAddr) (id : UInt32) (seqNr : UInt16)
    (now : UInt64) (rand : UInt16) : Ok (ctx.rejectUnknown addr id seqNr now rand) m n := by
  dsimp only [rejectUnknown]
  split
  · exact { h with }
  · split
    · exact { h with }
    · exact { h with }

/-- The table after `key` has handled a packet, if it is there. -/
def routed (m : UTPSocketKey → Option Conn) (ms : UInt64) (env : Env) (packet : List UInt8)
    (beyond : UInt8) (key : UTPSocketKey) (k : UTPSocketKey) : Option Conn :=
  if k = key then
    (m key).map fun c => ({ c with currentMs := ms } : Conn).utpProcessUdp env packet beyond
  else m k

/-- A datagram that is no SYN goes to its socket or is answered with a reset. -/
theorem processOther_ok (h : Ok ctx m n) (env : Env) (addr : PackedSockAddr)
    (packet : List UInt8) (beyond : UInt8) (id : UInt32) (seqNr : UInt16) (now : UInt64)
    (rand : UInt16) :
    Ok (ctx.processOther env addr packet beyond id seqNr now rand)
      (routed m ctx.currentMs env packet beyond ⟨addr, id⟩) n := by
  obtain ⟨last, hfind, hlast⟩ := find_eq h addr id
  have h' : Ok { ctx with lastUtpSocket := last } m n := { h with last := hlast }
  unfold processOther
  rw [hfind]
  cases hm : m ⟨addr, id⟩ with
  | none =>
    have hsame : routed m ctx.currentMs env packet beyond ⟨addr, id⟩ = m := put_of_none hm _
    rw [hsame]
    exact rejectUnknown_ok h' addr id seqNr now rand
  | some c => exact h'.on env ⟨addr, id⟩ (.udp packet beyond)

/-- The socket that a `ST_RESET` is for is one of its sender. -/
theorem findReset_addr {addr : PackedSockAddr} {id : UInt32}
    (hfind : ctx.findReset addr id = some key) : key.addr = addr := by
  unfold findReset at hfind
  split at hfind
  · rw [← Option.some.inj hfind]
  · split at hfind
    · rw [← Option.some.inj hfind]
    · split at hfind
      · rw [← Option.some.inj hfind]
      · cases hfind

/-- A `ST_SYN` changes at most the socket that it makes. -/
theorem processSyn_ok (h : Ok ctx m n) (hlimit : acceptLimit < n) (env : Env)
    (addr : PackedSockAddr) {packet rest : List UInt8} (beyond : UInt8) {pf : PacketFormatV1}
    (hdec : PacketFormatV1.decode packet = some (pf, rest)) (rand : UInt16) :
    ∃ m', Ok (ctx.processSyn env addr packet beyond pf.connid.toUInt32 rand) m' n ∧
      ∀ k, k ≠ ⟨addr, pf.connid.toUInt32 + 1⟩ ∨ (m k).isSome → m' k = m k := by
  dsimp only [processSyn]
  split
  · exact ⟨m, h, fun _ _ => rfl⟩
  · rename_i hnone
    rw [h.lookup_eq, Bool.not_eq_true, Option.isSome_eq_false_iff, Option.isNone_iff_eq_none]
      at hnone
    split
    · exact ⟨m, h, fun _ _ => rfl⟩
    · rename_i hcount
      have hle : ctx.utpSockets.count ≤ acceptLimit := Nat.le_of_not_lt hcount
      have hfew : ctx.utpSockets.count < libutpHashUnused := Nat.lt_of_le_of_lt hle (by decide)
      have hn : ctx.utpSockets.count < n := Nat.lt_of_le_of_lt hle hlimit
      split
      · exact ⟨m, h, fun _ _ => rfl⟩
      · rename_i c hacc
        refine ⟨_, h.add hnone (SocketOk.accept hdec hacc addr) hfew hn, fun k hk => if_neg ?_⟩
        rintro rfl
        rcases hk with hk | hk
        · exact hk rfl
        · rw [hnone] at hk
          cases hk

/-- A datagram changes at most one socket, which is one of its sender. -/
theorem processUdp_ok (h : Ok ctx m n) (hlimit : acceptLimit < n) (env : Env)
    (addr : PackedSockAddr) (packet : List UInt8) (beyond : UInt8) (now : UInt64) (rand : UInt16) :
    ∃ m' key, Ok (ctx.processUdp env addr packet beyond now rand) m' n ∧ key.addr = addr ∧
      ∀ k, k ≠ key → m' k = m k := by
  have hsame : ∃ m' key, Ok ctx m' n ∧ key.addr = addr ∧ ∀ k, k ≠ key → m' k = m k :=
    ⟨m, ⟨addr, 0⟩, h, rfl, fun _ _ => rfl⟩
  dsimp only [processUdp]
  split
  · exact hsame
  · rename_i pf rest hdec
    split
    · exact hsame
    · split
      · split
        · exact hsame
        · rename_i key hfind
          exact ⟨_, key, h.on env key (.udp packet beyond), findReset_addr hfind,
            fun k hk => if_neg hk⟩
      · obtain ⟨m', h', hkeep⟩ := processSyn_ok h hlimit env addr beyond hdec rand
        exact ⟨m', _, h', rfl, fun k hk => hkeep k (Or.inl hk)⟩
      · exact ⟨_, ⟨addr, pf.connid.toUInt32⟩,
          processOther_ok h env addr packet beyond _ pf.seqNr now rand, rfl,
          fun k hk => if_neg hk⟩

/-- What is neither a `ST_RESET` nor a `ST_SYN` goes to the socket with its id, and nowhere else. -/
theorem processUdp_routed (h : Ok ctx m n) (env : Env) (addr : PackedSockAddr)
    {packet rest : List UInt8} (beyond : UInt8) (now : UInt64) (rand : UInt16)
    {pf : PacketFormatV1} (hdec : PacketFormatV1.decode packet = some (pf, rest))
    (hversion : pf.utpVersion = 1) (hreset : PacketType.ofCode pf.type ≠ some .reset)
    (hsyn : PacketType.ofCode pf.type ≠ some .syn) :
    Ok (ctx.processUdp env addr packet beyond now rand)
      (routed m ctx.currentMs env packet beyond ⟨addr, pf.connid.toUInt32⟩) n := by
  dsimp only [processUdp]
  rw [hdec]
  dsimp only
  rw [if_neg (not_not.mpr hversion)]
  split
  · exact absurd ‹_› hreset
  · exact absurd ‹_› hsyn
  · exact processOther_ok h env addr packet beyond _ pf.seqNr now rand

/-! ### Timers -/

/-- What a check at `ms` leaves of a socket. -/
def checked (env : Env) (ms : UInt64) (c : Conn) : Option Conn :=
  let c := ({ c with currentMs := ms } : Conn).checkTimeouts env
  if c.state = .destroy then none else some c

/-- A socket of the table is deleted. -/
theorem destroy_ok (h : Ok ctx m n) (hm : m key = some c) {chains : Nat → List Nat}
    {freeList : List Nat} (hr : ctx.utpSockets.Rep chains [] freeList m) :
    ∃ chains' freeList', Ok (ctx.destroy key c) (fun k => if k = key then none else m k) n ∧
      (ctx.destroy key c).utpSockets.Rep chains' [] freeList'
        (fun k => if k = key then none else m k) ∧
      (ctx.destroy key c).utpSockets.entry = ctx.utpSockets.entry ∧
      ∀ it rest, UtpHash.IterAt ctx.utpSockets chains it rest →
        (∀ i ∈ rest, ctx.utpSockets.compare key i = false) →
        UtpHash.IterAt (ctx.destroy key c).utpSockets chains' it rest := by
  have hid : (⟨key.addr, c.connIdRecv⟩ : UTPSocketKey) = key := by
    rw [(h.socket key c hm).connIdRecv]
  unfold destroy
  rw [hid]
  obtain ⟨chains', freeList', -, hentry, hcount, hfound, hr', hiter⟩ := hr.del key
  refine ⟨chains', freeList', ?_, hr', hentry, hiter⟩
  constructor
  case table => exact ⟨chains', freeList', hr'⟩
  case room => exact Nat.le_trans hcount h.room
  case socket => exact socketOk_put h.socket fun _ hno => by cases hno
  case last =>
    intro k hk
    dsimp only at hk
    split at hk
    · cases hk
    · rename_i hlast
      rw [if_neg]
      · exact h.last k hk
      · rintro rfl
        exact hlast hk
  case fault =>
    dsimp only
    rw [hfound, hm, h.fault]
    rfl

/-- One socket is checked. The iterator, which has it behind it, goes on as before. -/
theorem checkSocket_ok (h : Ok ctx m n) (hm : m key = some c) (env : Env)
    {chains : Nat → List Nat} {freeList : List Nat}
    (hr : ctx.utpSockets.Rep chains [] freeList m) {it : UtpHashIterator} {rest : List Nat}
    (hit : UtpHash.IterAt ctx.utpSockets chains it rest)
    (hrest : some key ∉ rest.map ctx.utpSockets.keyAt) :
    ∃ m' chains' freeList', Ok (ctx.checkSocket env key c) m' n ∧
      (ctx.checkSocket env key c).utpSockets.Rep chains' [] freeList' m' ∧
      UtpHash.IterAt (ctx.checkSocket env key c).utpSockets chains' it rest ∧
      (ctx.checkSocket env key c).utpSockets.keyAt = ctx.utpSockets.keyAt ∧
      ∀ k, m' k = if k = key then checked env ctx.currentMs c else m k := by
  have hsocket := ((h.socket key c hm).clock ctx.currentMs).handle env .checkTimeouts
  dsimp only [checkSocket, checked]
  change SocketOk key (({ c with currentMs := ctx.currentMs } : Conn).checkTimeouts env) at hsocket
  generalize ({ c with currentMs := ctx.currentMs } : Conn).checkTimeouts env = c' at hsocket ⊢
  have h1 := h.setValue hm hsocket c'.currentMs
  have hr1 := (hr.setValue hm c').2
  have hkeys : (ctx.utpSockets.setValue key c').keyAt = ctx.utpSockets.keyAt :=
    funext (hr.keyAt_setValue hm c')
  split
  · obtain ⟨chains', freeList', h2, hr2, hentry, hiter⟩ := destroy_ok h1 (if_pos rfl) hr1
    refine ⟨_, chains', freeList', h2, hr2, hiter it rest (hit.setValue key c') fun i hi => ?_, ?_,
      fun k => ?_⟩
    · rw [← Bool.not_eq_true, UtpHash.compare_eq_true]
      rintro ⟨v, hv⟩
      refine hrest (List.mem_map.mpr ⟨i, hi, ?_⟩)
      rw [← hkeys]
      exact congrArg (Option.map Prod.fst) hv
    · rw [← hkeys]
      funext i
      exact congrArg (Option.map Prod.fst) (congrFun hentry i)
    · split <;> rfl
  · exact ⟨_, chains, freeList, h1, hr1, hit.setValue key c', hkeys, fun k => rfl⟩

/-- The loop checks each socket ahead of the iterator once. -/
theorem checkLoop_ok (env : UTPSocketKey → Env) (fuel : Nat) {it : UtpHashIterator}
    {rest : List Nat} {ctx : UtpContext} {m : UTPSocketKey → Option Conn}
    {chains : Nat → List Nat} {freeList : List Nat} (h : Ok ctx m n)
    (hr : ctx.utpSockets.Rep chains [] freeList m)
    (hit : UtpHash.IterAt ctx.utpSockets chains it rest) (hfuel : rest.length < fuel)
    (hnodup : (rest.map ctx.utpSockets.keyAt).Nodup) :
    ∃ (m' : UTPSocketKey → Option Conn) (ms : UTPSocketKey → UInt64),
      Ok (checkLoop env fuel it ctx) m' n ∧
      ∀ k, m' k = if some k ∈ rest.map ctx.utpSockets.keyAt then
        (m k).bind (checked (env k) (ms k)) else m k := by
  induction fuel generalizing it rest ctx m chains freeList with
  | zero => cases hfuel
  | succ fuel ih =>
    unfold checkLoop
    rcases UtpHash.iterate_eq hr hit with ⟨hnone, rfl⟩ | ⟨i, it', rest', hsome, rfl, hit'⟩
    · rw [hnone]
      exact ⟨m, fun _ => 0, h, fun k => (if_neg List.not_mem_nil).symm⟩
    · rw [hsome]
      dsimp only
      obtain ⟨b, hb, hi⟩ := hit.mem List.mem_cons_self
      obtain ⟨key, c, hentry, -, hm⟩ := hr.entry b hb i hi
      have hkey : ctx.utpSockets.keyAt i = some key := congrArg (Option.map Prod.fst) hentry
      rw [List.map_cons, hkey] at hnodup ⊢
      obtain ⟨hnot, hnodup⟩ := List.nodup_cons.mp hnodup
      obtain ⟨m1, chains', freeList', h1, hr1, hit1, hkeys, hm1⟩ :=
        checkSocket_ok h hm (env key) hr hit' hnot
      obtain ⟨m2, ms, h2, hm2⟩ := ih h1 hr1 hit1 (Nat.lt_of_succ_lt_succ hfuel)
        (by rw [hkeys]; exact hnodup)
      rw [hentry]
      refine ⟨m2, fun k => if k = key then ctx.currentMs else ms k, h2, fun k => ?_⟩
      rw [hm2, hkeys, hm1]
      by_cases heq : k = key
      · rw [heq, if_neg hnot, if_pos rfl, if_pos List.mem_cons_self, hm]
        show _ = checked (env key) (if key = key then ctx.currentMs else ms key) c
        rw [if_pos rfl]
      · rw [if_neg heq]
        by_cases hmem : some k ∈ rest'.map ctx.utpSockets.keyAt
        · rw [if_pos hmem, if_pos (List.mem_cons_of_mem _ hmem)]
          show _ = (m k).bind (checked (env k) (if k = key then ctx.currentMs else ms k))
          rw [if_neg heq]
        · have hmem' : some k ∉ some key :: rest'.map ctx.utpSockets.keyAt :=
            List.not_mem_cons_of_ne_of_not_mem (fun hno => heq (Option.some.inj hno)) hmem
          rw [if_neg hmem, if_neg hmem']

/-- `utp_check_timeouts`. -/
theorem checkTimeouts_ok (h : Ok ctx m n) (env : UTPSocketKey → Env) (now : UInt64) :
    ∃ (m' : UTPSocketKey → Option Conn) (ms : UTPSocketKey → UInt64),
      Ok (ctx.checkTimeouts env now) m' n ∧
      (¬ now - ctx.lastCheck < timeoutCheckInterval →
        ∀ k, m' k = (m k).bind (checked (env k) (ms k))) := by
  dsimp only [checkTimeouts]
  split
  · rename_i hlt
    exact ⟨m, fun _ => 0, { h with }, fun hno => absurd hlt hno⟩
  · obtain ⟨chains, freeList, hr⟩ := h.table
    have h0 : Ok { ctx with
        currentMs := now
        lastCheck := now
        rstInfo := expireRst now (ctx.rstInfo.length + 1) 0 ctx.rstInfo } m n := { h with }
    obtain ⟨m', ms, h', hm'⟩ := checkLoop_ok env (ctx.utpSockets.count + 1) h0 hr
      (UtpHash.IterAt.init _ chains) (Nat.lt_succ_of_le (Nat.le_of_eq hr.count.symm)) hr.keys_nodup
    refine ⟨m', ms, h', fun _ k => ?_⟩
    rw [hm']
    split
    · rfl
    · rename_i hnot
      cases hm : m k with
      | none => rfl
      | some c =>
        obtain ⟨i, hi, hentry⟩ := hr.stored k c hm
        refine absurd (List.mem_map.mpr ⟨i, ?_, ?_⟩) hnot
        · exact UtpHash.Rep.mem_cells (UtpHash.mkidx_lt _ hr.buckets.1 k) hi
        · exact congrArg (Option.map Prod.fst) hentry

/-! ### Whole runs -/

/-- The step lemma for a context. -/
theorem step_ok (h : Ok ctx m n) (hlimit : acceptLimit < n) (hroom : n < libutpHashUnused)
    (e : ContextEvent) : ∃ m', Ok (ctx.step e) m' (if e.isConnect then n + 1 else n) := by
  cases e with
  | connect env addr draws seqNr => exact connect_ok h hroom env addr draws seqNr
  | udp env addr packet beyond now rand =>
    obtain ⟨m', -, h', -⟩ := processUdp_ok h hlimit env addr packet beyond now rand
    exact ⟨m', h'⟩
  | call env key a => exact ⟨_, h.on env key (.call a)⟩
  | deferredAck env key => exact ⟨_, h.on env key .issueDeferredAcks⟩
  | checkTimeouts env now =>
    obtain ⟨m', -, h', -⟩ := checkTimeouts_ok h env now
    exact ⟨m', h'⟩

/-- The run lemma, by induction on the events. Only the connects count against the room. -/
theorem run_ok (events : List ContextEvent) {ctx : UtpContext} {m : UTPSocketKey → Option Conn}
    {n : Nat} (h : Ok ctx m n) (hlimit : acceptLimit < n)
    (hroom : n + events.countP ContextEvent.isConnect < libutpHashUnused) :
    ∃ m', Ok (ctx.run events) m' (n + events.countP ContextEvent.isConnect) := by
  induction events generalizing ctx m n with
  | nil => exact ⟨m, h⟩
  | cons e events ih =>
    rw [List.countP_cons] at hroom ⊢
    obtain ⟨m1, h1⟩ := step_ok h hlimit (by omega) e
    have hadd : (if e.isConnect then n + 1 else n) + events.countP ContextEvent.isConnect =
        n + (events.countP ContextEvent.isConnect + if e.isConnect then 1 else 0) := by
      split <;> omega
    obtain ⟨m2, h2⟩ := ih h1 (by split <;> omega) (by omega)
    rw [hadd] at h2
    exact ⟨m2, h2⟩

/-- The contexts that a run reaches. -/
theorem run_init_ok (hashCompute : UTPSocketKey → UInt32) (lastCheck : UInt64)
    (events : List ContextEvent)
    (hroom : acceptLimit + 1 + events.countP ContextEvent.isConnect < libutpHashUnused) :
    ∃ m, Ok ((init hashCompute lastCheck).run events) m
      (acceptLimit + 1 + events.countP ContextEvent.isConnect) :=
  run_ok events { init_ok hashCompute lastCheck with room := Nat.zero_le _ } (Nat.lt_succ_self _)
    hroom

/-- 127.0.0.1, port 9000. -/
def peer : PackedSockAddr := .set (.inet { sAddr := 0x0100007F, sinPort := 0x2823 })

section

variable (hashCompute : UTPSocketKey → UInt32) (lastCheck : UInt64) (events : List ContextEvent)

end

/-! ### Packets that belong to nobody -/

/-- What an entry of `rst_info` is about. -/
def rstKey (r : RstInfo) : PackedSockAddr × UInt32 × UInt16 := (r.addr, r.connid, r.ackNr)

/-- An entry is for a datagram when address, id and number agree. -/
theorem isFor_iff {r : RstInfo} {addr : PackedSockAddr} {id : UInt32} {seqNr : UInt16} :
    r.isFor addr id seqNr = true ↔ rstKey r = (addr, id, seqNr) := by
  unfold RstInfo.isFor rstKey
  rw [decide_eq_true_eq, Prod.mk.injEq, Prod.mk.injEq]
  tauto

/-- `rst_info` is not longer than its limit allows, and has no entry twice. -/
structure RstOk (l : List RstInfo) : Prop where
  limit : l.length ≤ rstInfoLimit + 1
  nodup : (l.map rstKey).Nodup

/-- Taking an entry out by moving the last one up keeps the others. -/
theorem moveUpLast_perm {α : Type} (l₁ l₂ : List α) (x : α) :
    ∃ l₃, moveUpLast (l₁ ++ x :: l₂) l₁.length = l₁ ++ l₃ ∧ List.Perm l₃ l₂ := by
  rcases List.eq_nil_or_concat' l₂ with rfl | ⟨l, y, rfl⟩
  · refine ⟨[], ?_, List.Perm.refl _⟩
    unfold moveUpLast
    rw [List.getLast?_concat]
    dsimp only
    rw [List.set_append_right _ _ (Nat.le_refl _), Nat.sub_self, List.set_cons_zero,
      List.dropLast_concat, List.append_nil]
  · refine ⟨y :: l, ?_, (List.perm_append_singleton y l).symm⟩
    unfold moveUpLast
    rw [← List.cons_append, ← List.append_assoc, List.getLast?_concat]
    dsimp only
    rw [List.append_assoc, List.set_append_right _ _ (Nat.le_refl _), Nat.sub_self,
      List.cons_append, List.set_cons_zero, ← List.cons_append, ← List.append_assoc,
      List.dropLast_concat]

/-- The loop over `rst_info` takes out the entries that are too old. -/
theorem expireRst_perm (now : UInt64) (fuel : Nat) (l₁ l₂ : List RstInfo)
    (hfuel : l₂.length < fuel) :
    List.Perm (expireRst now fuel l₁.length (l₁ ++ l₂))
      (l₁ ++ l₂.filter fun r => Conn.elapsed now r.timestamp < rstInfoTimeout) := by
  induction fuel generalizing l₁ l₂ with
  | zero => cases hfuel
  | succ fuel ih =>
    unfold expireRst
    cases l₂ with
    | nil =>
      rw [List.append_nil, List.getElem?_length]
      simp
    | cons r l₂ =>
      rw [List.getElem?_append_right (Nat.le_refl _), Nat.sub_self, List.getElem?_cons_zero]
      dsimp only
      rw [List.length_cons] at hfuel
      split
      · rename_i hold
        obtain ⟨l₃, heq, hperm⟩ := moveUpLast_perm l₁ l₂ r
        rw [heq, List.filter_cons_of_neg (by simpa using hold)]
        refine (ih l₁ l₃ (by rw [hperm.length_eq]; omega)).trans ?_
        exact (hperm.filter _).append_left l₁
      · rename_i hyoung
        have hrest := ih (l₁ ++ [r]) l₂ (by omega)
        rw [List.length_append, List.append_assoc, List.append_assoc] at hrest
        rw [List.filter_cons_of_pos (by simpa using hyoung)]
        exact hrest

namespace RstOk

/-- Entries that expire leave the rest in order. -/
theorem expire {l : List RstInfo} (h : RstOk l) (now : UInt64) :
    RstOk (expireRst now (l.length + 1) 0 l) := by
  have hperm := expireRst_perm now (l.length + 1) [] l (Nat.lt_succ_self _)
  rw [List.nil_append, List.nil_append] at hperm
  constructor
  case limit =>
    have hlen : (expireRst now (l.length + 1) 0 l).length = _ := hperm.length_eq
    rw [hlen]
    exact Nat.le_trans (List.length_filter_le _ _) h.limit
  case nodup =>
    refine (hperm.map rstKey).nodup_iff.mpr ?_
    exact h.nodup.sublist (List.filter_sublist.map rstKey)

end RstOk

/-- A step that checks nothing: an answer goes with a new entry. -/
structure RstStep (ctx ctx' : UtpContext) : Prop where
  ok : RstOk ctx.rstInfo → RstOk ctx'.rstInfo
  answers : ctx'.resets.length + ctx.rstInfo.length = ctx.resets.length + ctx'.rstInfo.length

/-- A context with the same resets. -/
theorem RstStep.of_eq {ctx ctx' : UtpContext} (h : ctx'.rstInfo = ctx.rstInfo)
    (hr : ctx'.resets = ctx.resets) : RstStep ctx ctx' :=
  ⟨fun hok => h ▸ hok, by rw [h, hr]⟩

/-- An event on a socket leaves the resets alone. -/
theorem on_rst (ctx : UtpContext) (key : UTPSocketKey) (f : Conn → Conn) :
    RstStep ctx (ctx.on key f) := by
  unfold UtpContext.on
  split
  · exact .of_eq rfl rfl
  · exact .of_eq rfl rfl

/-- A new socket leaves the resets alone. -/
theorem add_rst (ctx : UtpContext) (key : UTPSocketKey) (c : Conn) :
    RstStep ctx (ctx.add key c) := by
  unfold UtpContext.add
  split
  · exact .of_eq rfl rfl
  · exact .of_eq rfl rfl

/-- A connect leaves the resets alone. -/
theorem connect_rst (ctx : UtpContext) (env : Env) (addr : PackedSockAddr) (draws : List UInt32)
    (seqNr : UInt16) : RstStep ctx (ctx.connect env addr draws seqNr) := by
  dsimp only [connect]
  split
  · exact .of_eq rfl rfl
  · exact add_rst ctx _ _

/-- An unknown datagram is answered once, and only while there is room for the entry. -/
theorem rejectUnknown_rst (ctx : UtpContext) (addr : PackedSockAddr) (id : UInt32)
    (seqNr : UInt16) (now : UInt64) (rand : UInt16) :
    RstStep ctx (ctx.rejectUnknown addr id seqNr now rand) := by
  dsimp only [rejectUnknown]
  split
  · rename_i i hfind
    have hkeys : (ctx.rstInfo.modify i fun r => { r with timestamp := now }).map rstKey =
        ctx.rstInfo.map rstKey := by
      refine List.ext_getElem? fun j => ?_
      rw [List.getElem?_map, List.getElem?_map, List.getElem?_modify]
      cases ctx.rstInfo[j]? with
      | none => rfl
      | some r =>
        show some (rstKey (if i = j then { r with timestamp := now } else r)) = some (rstKey r)
        split <;> rfl
    have hlen : (ctx.rstInfo.modify i fun r => { r with timestamp := now }).length =
        ctx.rstInfo.length := List.length_modify _ _ _
    exact ⟨fun hok => ⟨hlen ▸ hok.limit, hkeys ▸ hok.nodup⟩, by dsimp only; rw [hlen]⟩
  · rename_i hnone
    split
    · exact .of_eq rfl rfl
    · rename_i hroom
      refine ⟨fun hok => ⟨?_, ?_⟩, ?_⟩
      · rw [List.length_append, List.length_singleton]
        exact Nat.succ_le_succ (Nat.le_of_not_lt hroom)
      · rw [List.map_append, List.nodup_append]
        refine ⟨hok.nodup, List.nodup_singleton _, fun k hk k' hk' => ?_⟩
        rintro rfl
        obtain ⟨r, hr, rfl⟩ := List.mem_map.mp hk
        rw [List.findIdx?_eq_none_iff] at hnone
        have hfor : r.isFor addr id seqNr = true := isFor_iff.mpr (List.mem_singleton.mp hk')
        rw [hnone r hr] at hfor
        cases hfor
      · dsimp only
        rw [List.length_append, List.length_append]
        show _ + 1 + _ = _ + (_ + 1)
        omega

/-- A lookup leaves the resets alone. -/
theorem find_rst (ctx : UtpContext) (addr : PackedSockAddr) (id : UInt32) :
    (ctx.find addr id).1.rstInfo = ctx.rstInfo ∧ (ctx.find addr id).1.resets = ctx.resets := by
  have hslow (ctx : UtpContext) : (ctx.findSlow addr id).1.rstInfo = ctx.rstInfo ∧
      (ctx.findSlow addr id).1.resets = ctx.resets := by
    unfold findSlow
    split <;> exact ⟨rfl, rfl⟩
  unfold find
  split
  · exact hslow ctx
  · split
    · exact hslow _
    · split
      · exact ⟨rfl, rfl⟩
      · exact hslow ctx

/-- Two steps in a row. -/
theorem RstStep.trans {ctx₁ ctx₂ ctx₃ : UtpContext} (h₁ : RstStep ctx₁ ctx₂)
    (h₂ : RstStep ctx₂ ctx₃) : RstStep ctx₁ ctx₃ :=
  ⟨h₂.ok ∘ h₁.ok, by have := h₁.answers; have := h₂.answers; omega⟩

/-- A datagram is answered with one reset at most. -/
theorem processUdp_rst (ctx : UtpContext) (env : Env) (addr : PackedSockAddr)
    (packet : List UInt8) (beyond : UInt8) (now : UInt64) (rand : UInt16) :
    RstStep ctx (ctx.processUdp env addr packet beyond now rand) := by
  have hsame : RstStep ctx ctx := .of_eq rfl rfl
  dsimp only [processUdp]
  split
  · exact hsame
  · rename_i pf rest hdec
    split
    · exact hsame
    · split
      · split
        · exact hsame
        · exact on_rst ctx _ _
      · dsimp only [processSyn]
        split
        · exact hsame
        · split
          · exact hsame
          · split
            · exact hsame
            · exact add_rst ctx _ _
      · obtain ⟨h1, h2⟩ := find_rst ctx addr pf.connid.toUInt32
        have hfind : RstStep ctx (ctx.find addr pf.connid.toUInt32).1 := .of_eq h1 h2
        unfold processOther
        split
        · rename_i ctx' heq
          rw [heq] at hfind
          exact hfind.trans (rejectUnknown_rst ctx' addr _ _ now rand)
        · rename_i ctx' key heq
          rw [heq] at hfind
          exact hfind.trans (on_rst ctx' key _)

/-- The check of the sockets leaves the resets alone. -/
theorem checkLoop_rst (env : UTPSocketKey → Env) (fuel : Nat) (it : UtpHashIterator)
    (ctx : UtpContext) : (checkLoop env fuel it ctx).rstInfo = ctx.rstInfo ∧
      (checkLoop env fuel it ctx).resets = ctx.resets := by
  induction fuel generalizing it ctx with
  | zero => exact ⟨rfl, rfl⟩
  | succ fuel ih =>
    unfold checkLoop
    split
    · exact ⟨rfl, rfl⟩
    · split
      · exact ⟨rfl, rfl⟩
      · rename_i key c hentry
        obtain ⟨h1, h2⟩ := ih _ (ctx.checkSocket (env key) key c)
        rw [h1, h2]
        dsimp only [checkSocket]
        split
        · exact ⟨rfl, rfl⟩
        · exact ⟨rfl, rfl⟩

/-- The check sends no reset and takes expired entries out. -/
theorem checkTimeouts_rst (ctx : UtpContext) (env : UTPSocketKey → Env) (now : UInt64) :
    (ctx.checkTimeouts env now).resets = ctx.resets ∧
      ((ctx.checkTimeouts env now).rstInfo = ctx.rstInfo ∨
        (ctx.checkTimeouts env now).rstInfo =
          expireRst now (ctx.rstInfo.length + 1) 0 ctx.rstInfo) := by
  dsimp only [checkTimeouts]
  split
  · exact ⟨rfl, Or.inl rfl⟩
  · obtain ⟨h1, h2⟩ := checkLoop_rst env (ctx.utpSockets.count + 1) .init { ctx with
      currentMs := now
      lastCheck := now
      rstInfo := expireRst now (ctx.rstInfo.length + 1) 0 ctx.rstInfo }
    exact ⟨h2, Or.inr h1⟩

/-- The step lemma for the resets, between two checks. -/
theorem step_rst (ctx : UtpContext) (e : ContextEvent) (he : e.isCheck = false) :
    RstStep ctx (ctx.step e) := by
  cases e with
  | connect env addr draws seqNr => exact connect_rst ctx env addr draws seqNr
  | udp env addr packet beyond now rand =>
    exact processUdp_rst ctx env addr packet beyond now rand
  | call env key a => exact on_rst ctx key fun c => c.call env a
  | deferredAck env key => exact on_rst ctx key fun c => c.issueDeferredAck env
  | checkTimeouts env now => cases he

/-- The entries are in order in every run. -/
theorem run_rstOk (events : List ContextEvent) {ctx : UtpContext} (h : RstOk ctx.rstInfo) :
    RstOk (ctx.run events).rstInfo := by
  induction events generalizing ctx with
  | nil => exact h
  | cons e events ih =>
    have hstep : RstOk (ctx.step e).rstInfo := by
      cases he : e.isCheck with
      | false => exact (step_rst ctx e he).ok h
      | true =>
        cases e with
        | checkTimeouts env now =>
          rcases (checkTimeouts_rst ctx env now).2 with heq | heq
          · exact heq ▸ h
          · exact heq ▸ h.expire now
        | _ => cases he
    exact ih hstep

/-- The run lemma for the resets, between two checks. -/
theorem run_rstStep (events : List ContextEvent) (ctx : UtpContext)
    (hcheck : ∀ e ∈ events, e.isCheck = false) : RstStep ctx (ctx.run events) := by
  induction events generalizing ctx with
  | nil => exact .of_eq rfl rfl
  | cons e events ih =>
    obtain ⟨he, hrest⟩ := List.forall_mem_cons.mp hcheck
    exact (step_rst ctx e he).trans (ih (ctx.step e) hrest)

/-- A context does not flood anybody with answers: it remembers what it has answered, each packet
once, and answers at most 1001 packets between two checks. -/
theorem run_resets (hashCompute : UTPSocketKey → UInt32) (lastCheck : UInt64)
    (events more : List ContextEvent) (hcheck : ∀ e ∈ more, e.isCheck = false) :
    let ctx := (init hashCompute lastCheck).run events
    RstOk (ctx.run more).rstInfo ∧
      (ctx.run more).resets.length + ctx.rstInfo.length ≤
        ctx.resets.length + (rstInfoLimit + 1) := by
  intro ctx
  have hok : RstOk ctx.rstInfo := run_rstOk events ⟨Nat.zero_le _, List.nodup_nil⟩
  obtain ⟨hstep, hanswers⟩ := run_rstStep more ctx hcheck
  refine ⟨hstep hok, ?_⟩
  rw [hanswers]
  exact Nat.add_le_add_left (hstep hok).limit _

/-- A datagram for no socket comes twice, and is answered once. -/
theorem run_resets_twice :
    let state := ({ PacketFormatV1.ofType .state with connid := 7 } : PacketFormatV1).encode
    RstOk (((init (fun key => key.recvId) 0).run []).run
      [.udp .still peer state 0 0 0, .udp .still peer state 0 0 0]).rstInfo :=
  (run_resets (fun key => key.recvId) 0 [] [.udp .still peer _ 0 0 0, .udp .still peer _ 0 0 0]
    (by decide)).1

end UtpContext

end EChannel.LibUtp

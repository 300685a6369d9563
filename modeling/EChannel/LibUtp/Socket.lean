import EChannel.Support.Qt

/-!
# `EChannel.LibUtp.Socket`: the uTP socket as its caller sees it

libutp (`libutp/src/utp_internal.cpp`) is the vendored transport under `UtpHandle`. What the
callers depend on is the connection state of a socket, its user data and the two connection
ids that route its packets. Sequence numbers, windows and timers are not modelled: when
libutp moves a socket on, and how many bytes a `utp_write` takes, is an input of the model.

The functions below are the state changes of `utp_internal.cpp`. `connected` is the state of
an accepted socket from the start, as this copy of libutp has it (the `CS_SYN_RECV` line is
commented out in `utp_process_udp`).
-/

set_option autoImplicit false

namespace EChannel.LibUtp

/-- `CONN_STATE`. -/
inductive ConnState
  | uninitialized
  | idle
  | synSent
  | synRecv
  | connected
  | connectedFull
  | gotFin
  | destroyDelay
  | finSent
  | reset
  | destroy
  deriving DecidableEq, Repr

/-- The states that the assertion in front of `utp_close` lets through. -/
def ConnState.closable : ConnState → Bool
  | .uninitialized | .destroyDelay | .finSent | .destroy => false
  | _ => true

/-- A uTP packet, as far as the callers can tell packets apart. -/
inductive Packet
  | syn (connid : Nat)
  | state (connid : Nat)
  | other (bytes : QByteArray)
  deriving DecidableEq, Repr

/-- A `utp_socket*`: sockets are numbered in the order of their creation, so a number is
never used again. -/
abbrev SockId := Nat

/-- The part of `UTPSocket` that the callers depend on. `userdata` is the `void*` that
carries a connection id, `NULL` is `0`. -/
structure UTPSocket where
  state : ConnState
  userdata : Int
  addr : QString
  connIdRecv : Nat
  connIdSend : Nat
  deriving DecidableEq, Repr

/-- What libutp answers to one `utp_write`: how many bytes the send window takes, and whether
it marks the socket as full afterwards. -/
structure WriteResult where
  taken : Nat
  full : Bool
  deriving DecidableEq, Repr

namespace UTPSocket

/-- A socket after `utp_create_socket` and `utp_connect`, with the random `conn_seed`. -/
def connecting (addr : QString) (seed : Nat) : UTPSocket :=
  { state := .synSent, userdata := 0, addr, connIdRecv := seed, connIdSend := seed + 1 }

/-- The socket that `utp_process_udp` makes for a `ST_SYN` with the id `connid`. -/
def accepted (addr : QString) (connid : Nat) : UTPSocket :=
  { state := .connected, userdata := 0, addr, connIdRecv := connid + 1, connIdSend := connid }

/-- `utp_writev` of `len` bytes: nothing is taken unless the state is `CS_CONNECTED`, and the
socket can become `CS_CONNECTED_FULL` when not everything was taken. -/
def write (s : UTPSocket) (len : Nat) (r : WriteResult) : UTPSocket × Nat :=
  if s.state = .connected then
    -- `utp_writev` sets the state when the window is full and bytes are left over.
    if min r.taken len < len ∧ r.full = true then
      ({ s with state := .connectedFull }, min r.taken len)
    else (s, min r.taken len)
  else (s, 0)

/-- The `switch` of `utp_close`. -/
def close (s : UTPSocket) : UTPSocket :=
  match s.state with
  | .connected => { s with state := .finSent }
  | .connectedFull => { s with state := .finSent }
  | .synSent => { s with state := .destroyDelay }
  | .gotFin => { s with state := .destroyDelay }
  -- After a reset the socket is destroyed at once. The assertion in front of the `switch`
  -- forbids the closing states, and a release build goes here for them too.
  | _ => { s with state := .destroy }

/-- The state after a `ST_RESET`, an ICMP error or too many timeouts. -/
def fail (s : UTPSocket) : UTPSocket :=
  if s.state = .finSent then { s with state := .destroy } else { s with state := .reset }

/-- The state after the timer of a closing socket, or after the peer has acknowledged
everything including the `ST_FIN`. -/
def expire (s : UTPSocket) : UTPSocket :=
  if s.state = .gotFin then { s with state := .reset } else { s with state := .destroy }

/-- The states in which `utp_write` can take bytes now or later: the socket is connected, or
it is still connecting. -/
def isOpen (s : UTPSocket) : Bool :=
  match s.state with
  | .synSent | .synRecv | .connected | .connectedFull => true
  | _ => false

/-- The two states of an established connection. -/
def isConnected (s : UTPSocket) : Bool :=
  match s.state with
  | .connected | .connectedFull => true
  | _ => false

/-- A write never takes more than it is given. -/
theorem write_le (s : UTPSocket) (len : Nat) (r : WriteResult) : (s.write len r).2 ≤ len := by
  unfold write
  split
  · split <;> exact Nat.min_le_right _ _
  · exact Nat.zero_le _

/-- A write changes nothing but the state, and the state only from connected to full. -/
theorem write_fst (s : UTPSocket) (len : Nat) (r : WriteResult) :
    (s.write len r).1 = s ∨
      s.state = .connected ∧ (s.write len r).1 = { s with state := .connectedFull } := by
  unfold write
  split
  · rename_i h
    split
    · exact Or.inr ⟨h, rfl⟩
    · exact Or.inl rfl
  · exact Or.inl rfl

/-- Bytes are taken by a connected socket only. -/
theorem write_eq_zero (s : UTPSocket) (len : Nat) (r : WriteResult) (h : s.state ≠ .connected) :
    (s.write len r).2 = 0 := by
  simp [write, h]

/-- A closed socket is not open. -/
theorem close_isOpen (s : UTPSocket) : s.close.isOpen = false := by
  unfold close
  split <;> rfl

/-- A failed socket is not open. -/
theorem fail_isOpen (s : UTPSocket) : s.fail.isOpen = false := by
  unfold fail
  split <;> rfl

/-- A socket whose timer has run out is not open. -/
theorem expire_isOpen (s : UTPSocket) : s.expire.isOpen = false := by
  unfold expire
  split <;> rfl

/-- A connected socket is open. -/
theorem isOpen_of_isConnected {s : UTPSocket} (h : s.isConnected = true) :
    s.isOpen = true := by
  unfold isConnected at h
  unfold isOpen
  cases hstate : s.state <;> simp [hstate] at h ⊢

/-- `utp_close` keeps the user data. -/
@[simp] theorem close_userdata (s : UTPSocket) : s.close.userdata = s.userdata := by
  unfold close
  split <;> rfl

/-- An error keeps the user data. -/
@[simp] theorem fail_userdata (s : UTPSocket) : s.fail.userdata = s.userdata := by
  unfold fail
  split <;> rfl

/-- A timeout keeps the user data. -/
@[simp] theorem expire_userdata (s : UTPSocket) : s.expire.userdata = s.userdata := by
  unfold expire
  split <;> rfl

/-- `utp_close` keeps the address. -/
@[simp] theorem close_addr (s : UTPSocket) : s.close.addr = s.addr := by
  unfold close
  split <;> rfl

/-- An error keeps the address. -/
@[simp] theorem fail_addr (s : UTPSocket) : s.fail.addr = s.addr := by
  unfold fail
  split <;> rfl

/-- A timeout keeps the address. -/
@[simp] theorem expire_addr (s : UTPSocket) : s.expire.addr = s.addr := by
  unfold expire
  split <;> rfl

/-- A connecting socket is open. -/
theorem isOpen_of_synSent {s : UTPSocket} (h : s.state = .synSent) : s.isOpen = true := by
  simp [isOpen, h]

end UTPSocket

end EChannel.LibUtp

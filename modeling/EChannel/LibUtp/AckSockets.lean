import Mathlib.Logic.Function.Basic

/-!
# `EChannel.LibUtp.AckSockets`: the sockets that owe an acknowledgment

A context keeps the sockets with a delayed acknowledgment in `ack_sockets`, and each socket its
index there, `ida`, which is -1 when it is not in the array. Every datagram a socket sends takes
it out: the last socket of the array moves to its place. `utp_issue_deferred_acks` sends the
acknowledgments of all that are left.

`Conn.ackPending` says that a socket is in the array. Here `σ` is the sockets, and nothing is said
about them but that.
-/

set_option autoImplicit false

namespace EChannel.LibUtp

/-- `ack_sockets`, and `ida` of every socket. `acks` are the sockets for which the loop of
`utp_issue_deferred_acks` has called `send_ack`. -/
structure AckSockets (σ : Type) where
  sockets : List σ
  ida : σ → Int
  acks : List σ
  fault : Bool

namespace AckSockets

variable {σ : Type}

/-- A new context. -/
def init : AckSockets σ := { sockets := [], ida := fun _ => -1, acks := [], fault := false }

variable [DecidableEq σ]

/-- `assert(last->ida < count)` and `assert(ack_sockets[last->ida] == last)`. -/
def lastOk (a : AckSockets σ) (last : σ) : Bool :=
  a.ida last < a.sockets.length ∧ a.sockets[(a.ida last).toNat]? = some last

/-- `removeSocketFromAckList`. -/
def removeSocketFromAckList (a : AckSockets σ) (conn : σ) : AckSockets σ :=
  if 0 ≤ a.ida conn then
    match a.sockets.getLast? with
    | none => { a with fault := true }
    | some last =>
      let a := { a with fault := a.fault || !a.lastOk last }
      let a := { a with ida := Function.update a.ida last (a.ida conn) }
      { a with
        sockets := (a.sockets.set (a.ida conn).toNat last).dropLast
        ida := Function.update a.ida conn (-1) }
  else a

/-- `schedule_ack`. -/
def scheduleAck (a : AckSockets σ) (conn : σ) : AckSockets σ :=
  if a.ida conn = -1 then
    { a with
      sockets := a.sockets ++ [conn]
      ida := Function.update a.ida conn a.sockets.length }
  else a

/-- `send_ack`, which takes the socket out after the datagram, and at its end once more. -/
def sendAck (a : AckSockets σ) (conn : σ) : AckSockets σ :=
  (a.removeSocketFromAckList conn).removeSocketFromAckList conn

/-- The loop of `utp_issue_deferred_acks`. The index goes back after each socket, so it is the
first one every time. -/
def issueLoop : Nat → AckSockets σ → AckSockets σ
  | 0, a => a
  | n + 1, a =>
    match a.sockets.head? with
    | none => a
    | some conn => issueLoop n ({ a with acks := a.acks ++ [conn] }.sendAck conn)

/-- `utp_issue_deferred_acks`. -/
def issueDeferredAcks (a : AckSockets σ) : AckSockets σ := issueLoop a.sockets.length a

/-- What the sockets of a context do. -/
inductive Op (σ : Type)
  | schedule (conn : σ)
  | send (conn : σ)
  | issue
  deriving DecidableEq, Repr

def apply (a : AckSockets σ) : Op σ → AckSockets σ
  | .schedule conn => a.scheduleAck conn
  | .send conn => a.removeSocketFromAckList conn
  | .issue => a.issueDeferredAcks

def run (a : AckSockets σ) (ops : List (Op σ)) : AckSockets σ := ops.foldl apply a

/-- The sockets that owe an acknowledgment, after an operation. -/
def Op.onPending (pending : σ → Bool) : Op σ → σ → Bool
  | .schedule conn => Function.update pending conn true
  | .send conn => Function.update pending conn false
  | .issue => fun _ => false

end AckSockets

end EChannel.LibUtp

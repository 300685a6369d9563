import Mathlib.Logic.Function.Basic

/-!
# `EChannel.LibUtp.UtpHash`: the hash table of libutp

`utp_hash_t` (`libutp/src/utp_hash.cpp`) keeps the sockets of a context. Elements lie in one
block of memory and are known by their index there. Each has a link: the elements of a bucket
form a list from `inits`, and the elements that were deleted form a list from `free`. When no
element is free the next unused one is taken, and the block grows when there is none.

`entry i` is the key of the element `i`, and the value that the caller puts behind it.
-/

set_option autoImplicit false

namespace EChannel.LibUtp

/-- `LIBUTP_HASH_UNUSED`. -/
def libutpHashUnused : Nat := 0xFFFFFFFF

/-- `utp_hash_t`. -/
structure UtpHash (κ β : Type) where
  N : Nat
  hashCompute : κ → UInt32
  inits : Nat → Nat
  entry : Nat → Option (κ × β)
  link : Nat → Nat
  allocated : Nat
  count : Nat
  used : Nat
  free : Nat

/-- `utp_hash_iterator_t`. -/
structure UtpHashIterator where
  bucket : Nat
  elem : Nat
  deriving DecidableEq, Repr

/-- A new iterator. -/
def UtpHashIterator.init : UtpHashIterator :=
  { bucket := libutpHashUnused, elem := libutpHashUnused }

namespace UtpHash

variable {κ β : Type}

/-- `utp_hash_create`. -/
def create (N initial : Nat) (hashCompute : κ → UInt32) : UtpHash κ β :=
  { N, hashCompute
    inits := fun _ => libutpHashUnused
    entry := fun _ => none
    link := fun _ => 0
    allocated := initial
    count := 0
    used := 0
    free := libutpHashUnused }

/-- `utp_hash_mkidx`. -/
def mkidx (h : UtpHash κ β) (key : κ) : Nat := (h.hashCompute key).toNat % h.N

/-- A larger block when every element is used. There is none beyond the largest index. -/
def grow (h : UtpHash κ β) : Option (UtpHash κ β) :=
  if h.used = h.allocated then
    if h.allocated ≤ libutpHashUnused / 2 then some { h with allocated := h.allocated * 2 }
    else if h.allocated ≠ libutpHashUnused then some { h with allocated := libutpHashUnused }
    else none
  else some h

/-- The end of `utp_hash_add`: `elem` becomes the first element of its bucket. -/
def linkIn (h : UtpHash κ β) (elem : Nat) (key : κ) (value : β) : UtpHash κ β :=
  { h with
    link := Function.update h.link elem (h.inits (h.mkidx key))
    inits := Function.update h.inits (h.mkidx key) elem
    count := h.count + 1
    entry := Function.update h.entry elem (some (key, value)) }

/-- `utp_hash_add`, with the value that the caller stores in the new element. -/
def add (h : UtpHash κ β) (key : κ) (value : β) : Option (UtpHash κ β) :=
  if h.free = libutpHashUnused then
    match h.grow with
    | none => none
    | some h => some ({ h with used := h.used + 1 }.linkIn h.used key value)
  else some ({ h with free := h.link h.free }.linkIn h.free key value)

/-- The search for a bucket with an element in `utp_hash_iterate`. -/
def nextBucket (h : UtpHash κ β) : Nat → Nat → Option (Nat × Nat)
  | 0, _ => none
  | n + 1, buck =>
    if h.N ≤ buck then none
    else if h.inits buck ≠ libutpHashUnused then some (buck, h.inits buck)
    else nextBucket h n (buck + 1)

/-- `utp_hash_iterate`: the next element, and the iterator that knows the one behind it. -/
def iterate (h : UtpHash κ β) (it : UtpHashIterator) : Option (Nat × UtpHashIterator) :=
  if it.elem = libutpHashUnused then
    match h.nextBucket (h.N + 1) ((it.bucket + 1) % 0x100000000) with
    | none => none
    | some (buck, elem) => some (elem, { bucket := buck, elem := h.link elem })
  else some (it.elem, { it with elem := h.link it.elem })

variable [DecidableEq κ]

/-- `COMPARE` of the element `i` with a key. -/
def compare (h : UtpHash κ β) (key : κ) (i : Nat) : Bool :=
  match h.entry i with
  | none => false
  | some (key2, _) => key = key2

/-- The loop of `utp_hash_lookup`. -/
def lookupFrom (h : UtpHash κ β) (key : κ) : Nat → Nat → Option Nat
  | 0, _ => none
  | n + 1, cur =>
    if cur = libutpHashUnused then none
    else if h.compare key cur then some cur
    else lookupFrom h key n (h.link cur)

/-- `utp_hash_lookup`, the index of the element. No list is longer than `used`. -/
def lookupIndex (h : UtpHash κ β) (key : κ) : Option Nat :=
  h.lookupFrom key (h.used + 1) (h.inits (h.mkidx key))

/-- `utp_hash_lookup`, and the value there. -/
def lookup (h : UtpHash κ β) (key : κ) : Option β :=
  (h.lookupIndex key).bind fun i => (h.entry i).map Prod.snd

/-- The loop of `utp_hash_del`: the element, and the one before it whose link `curp` is. Without
one, `curp` is the start of the bucket. -/
def findCurp (h : UtpHash κ β) (key : κ) : Nat → Option Nat → Nat → Option (Option Nat × Nat)
  | 0, _, _ => none
  | n + 1, prev, cur =>
    if cur = libutpHashUnused then none
    else if h.compare key cur then some (prev, cur)
    else findCurp h key n (some cur) (h.link cur)

/-- `*curp = ...`. -/
def setCurp (h : UtpHash κ β) (idx : Nat) (prev : Option Nat) (next : Nat) : UtpHash κ β :=
  match prev with
  | none => { h with inits := Function.update h.inits idx next }
  | some j => { h with link := Function.update h.link j next }

/-- `utp_hash_del`. The second component is false when the result is `NULL`. -/
def del (h : UtpHash κ β) (key : κ) : UtpHash κ β × Bool :=
  match h.findCurp key (h.used + 1) none (h.inits (h.mkidx key)) with
  | none => (h, false)
  | some (prev, cur) =>
    let h := h.setCurp (h.mkidx key) prev (h.link cur)
    ({ h with
      link := Function.update h.link cur h.free
      free := cur
      count := h.count - 1 }, true)

/-- A new value in the element of `key`, through the pointer that a lookup returns. -/
def setValue (h : UtpHash κ β) (key : κ) (value : β) : UtpHash κ β :=
  match h.lookupIndex key with
  | none => h
  | some i => { h with entry := Function.update h.entry i (some (key, value)) }

omit [DecidableEq κ] in
/-- The indices that a loop over `utp_hash_iterate` visits. -/
def walk (h : UtpHash κ β) : Nat → UtpHashIterator → List Nat
  | 0, _ => []
  | n + 1, it =>
    match h.iterate it with
    | none => []
    | some (i, it) => i :: walk h n it

/-- What the callers do with a table. -/
inductive Op (κ β : Type)
  | add (key : κ) (value : β)
  | del (key : κ)
  deriving DecidableEq, Repr

/-- A key is added only after a lookup has not found it. -/
def apply (h : UtpHash κ β) : Op κ β → UtpHash κ β
  | .add key value => if (h.lookupIndex key).isSome then h else (h.add key value).getD h
  | .del key => (h.del key).1

def run (h : UtpHash κ β) (ops : List (Op κ β)) : UtpHash κ β := ops.foldl apply h

/-- What an operation does to the map that a table stands for. -/
def Op.onMap (m : κ → Option β) : Op κ β → κ → Option β
  | .add key value, k => if k = key ∧ (m key).isNone then some value else m k
  | .del key, k => if k = key then none else m k

end UtpHash

end EChannel.LibUtp

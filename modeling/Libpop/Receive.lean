import Libpop.Circular
import Libpop.RxRing

/-!
# A receiver and its NIC

The receive loop of nvgen and nmgen with the NIC, one step for each `NIOCRXSYNC` and for each
turn of the drain loop. The NIC puts packets into the slots that it has, in order and at any
time. A `NIOCRXSYNC` shows some of them to the receiver and gives the slots that it has released
back to the NIC, which always leaves one slot alone.
-/

namespace Libpop

/-- `NIOCRXSYNC` shows one more packet. -/
def NetmapRing.deliver (r : NetmapRing) (len : BitVec 16) : NetmapRing :=
  { r with
    tail := nmRingNext r r.tail
    slot := Function.update r.slot r.tail { r.slot r.tail with len := len } }

inductive RecvPc
  | top
  | drain
  | done
  | failed
  deriving DecidableEq

/-- The receiver with the ring and the counters of its pass, the lengths of all packets that the NIC
has received, how many of them were delivered, how many were drained, how many slots the NIC
has got back, and the lengths that the drain loop has seen. -/
structure RecvState where
  pc : RecvPc
  pass : Drain
  npkts : BitVec 64
  nbits : BitVec 64
  received : List (BitVec 16)
  delivered : Nat
  drained : Nat
  returned : Nat
  seen : List (BitVec 16)

/-- The receiver in front of its loop. The ring may hold packets already. -/
def recvInit (ring : NetmapRing) : RecvState :=
  let pending :=
    (Circular.slots ring.numSlots ring.head (ring.ahead ring.head ring.tail)).map fun i => (ring.slot i).len
  { pc := .top, pass := ⟨ring, 0, 0, []⟩, npkts := 0, nbits := 0
    received := pending, delivered := pending.length, drained := 0, returned := 0, seen := [] }

/-- `receive` is the NIC's. The top of the loop with `th->cancel` not set is `sync`, with the number of
packets that its `NIOCRXSYNC` delivers, `none` for an error; `leave` is the top with `th->cancel`
set. -/
inductive RecvOp
  | receive (len : BitVec 16)
  | sync (deliver : Option Nat)
  | drain
  | leave

def recvStep (s : RecvState) : RecvOp → Option RecvState
  | .receive len =>
    if s.received.length + 1 < s.returned + s.pass.ring.numSlots then
      some { s with received := s.received ++ [len] }
    else none
  | .sync none => if s.pc = .top then some { s with pc := .failed } else none
  | .sync (some n) =>
    if s.pc = .top ∧ s.delivered + n ≤ s.received.length then some { s with
      pc := .drain
      pass := ⟨((s.received.drop s.delivered).take n).foldl NetmapRing.deliver s.pass.ring, 0, 0, []⟩
      delivered := s.delivered + n, returned := s.drained }
    else none
  | .drain =>
    if s.pc = .drain then
      if nmRingEmpty s.pass.ring then some { s with
        pc := .top, npkts := s.npkts + s.pass.npkts, nbits := s.nbits + s.pass.nbits }
      else some { s with
        pass := drainBody s.pass, drained := s.drained + 1
        seen := s.seen ++ [(s.pass.ring.slot s.pass.ring.head).len] }
    else none
  | .leave => if s.pc = .top then some { s with pc := .done } else none

end Libpop

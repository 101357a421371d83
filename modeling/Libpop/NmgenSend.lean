import Mathlib.Logic.Function.Basic
import Libpop.Netmap
import Libpop.Nmgen

/-!
# The transmit loop of nmgen

Embedding of `nmgen_sender_body` of `apps/nmgen.c` behind its build loop, with the netmap ring
that it shares with the NIC. The thread takes a step for each `NIOCTXSYNC` with the tests
behind it, for each slot that it fills and for the move of the head. The NIC sends the slots up
to the head in order at any time, and netmap gives slots back some time after they were sent.
-/

namespace Libpop.Nmgen

/-- `nm_tx_pending` of `net/netmap_user.h`. -/
def nmTxPending (r : NetmapRing) : Bool :=
  decide (nmRingNext r r.tail ≠ r.head)

inductive SendPc
  | top
  | slot
  | publish
  | drain
  | done
  | failed
  deriving DecidableEq

/-- Locals of `nmgen_sender_body`. -/
structure SendThread where
  pc : SendPc
  head : Nat
  batch : Nat
  b : Nat
  npkts : BitVec 64
  nbits : BitVec 64

/-- What the loop reads: the options, the flag of netmap and the addresses in `pkts_phy`. -/
structure SendConf where
  gen : NmgenParam
  nsPhyIndirect : BitVec 16
  pktsPhy : Nat → BitVec 64

/-- The thread, the ring, the counters in `struct nmgen_thread`, every slot as it was filled, how
many of these the head of the ring covers, the NIC has sent and netmap has given back, and the
slots as the NIC has found them. -/
structure SendState where
  thread : SendThread
  ring : NetmapRing
  npkts : BitVec 64
  nbits : BitVec 64
  written : List NetmapSlot
  posted : Nat
  transmitted : Nat
  reclaimed : Nat
  sent : List NetmapSlot

/-- A ring that has just been opened has one slot less than it has free. -/
def sendInit (numSlots : Nat) (slot : Nat → NetmapSlot) : SendState :=
  { thread := ⟨.top, 0, 0, 0, 0, 0⟩, ring := ⟨numSlots, 0, 0, numSlots - 1, slot⟩, npkts := 0, nbits := 0
    written := [], posted := 0, transmitted := 0, reclaimed := 0, sent := [] }

/-- `NIOCTXSYNC` gives `n` slots back. -/
def SendState.giveBack (s : SendState) (n : Nat) : SendState :=
  { s with ring := { s.ring with tail := (s.ring.tail + n) % s.ring.numSlots }, reclaimed := s.reclaimed + n }

/-- `space > gen->batch ? gen->batch : space`, where the `int` is compared as an `unsigned long`. -/
def sendBatch (gen : NmgenParam) (space : Nat) : Nat :=
  if space > (gen.batch.signExtend 64).toNat then (gen.batch.signExtend 64).toNat else space

def afterFill (t : SendThread) : SendThread :=
  if t.b < t.batch then { t with pc := .slot } else { t with pc := .publish }

def fillSlot (conf : SendConf) (b : Nat) (slot : NetmapSlot) : NetmapSlot :=
  { flags := slot.flags ||| conf.nsPhyIndirect, ptr := conf.pktsPhy b, len := conf.gen.pktlen.setWidth 16 }

/-- `gen->pktlen << 3`, added to an `unsigned long`. -/
def pktBits (gen : NmgenParam) : BitVec 64 :=
  (gen.pktlen <<< 3).signExtend 64

/-- The top of the loop with `th->cancel` not set is `sync`, with the slots that its `NIOCTXSYNC` gives
back, `none` for an error; `leave` is the top with `th->cancel` set. -/
inductive SendOp
  | sync (reclaim : Option Nat)
  | slot
  | publish
  | leave
  | drain (reclaim : Nat)
  | transmit

def sendStep (conf : SendConf) (s : SendState) : SendOp → Option SendState
  | .sync none =>
    if s.thread.pc = .top then some { s with thread := { s.thread with pc := .failed } } else none
  | .sync (some n) =>
    if s.thread.pc = .top ∧ s.reclaimed + n ≤ s.transmitted then
      let s := s.giveBack n
      let space := nmRingSpace s.ring
      if space = 0 then some s
      else some { s with thread := afterFill ⟨.top, s.ring.head, sendBatch conf.gen space, 0, 0, 0⟩ }
    else none
  | .slot =>
    if s.thread.pc = .slot then
      let slot := fillSlot conf s.thread.b (s.ring.slot s.thread.head)
      some { s with
        ring := { s.ring with slot := Function.update s.ring.slot s.thread.head slot }
        thread := afterFill { s.thread with
          npkts := s.thread.npkts + 1, nbits := s.thread.nbits + pktBits conf.gen
          head := nmRingNext s.ring s.thread.head, b := s.thread.b + 1 }
        written := s.written ++ [slot] }
    else none
  | .publish =>
    if s.thread.pc = .publish then some { s with
      ring := { s.ring with head := s.thread.head, cur := s.thread.head }
      thread := { s.thread with pc := .top }
      npkts := s.npkts + s.thread.npkts, nbits := s.nbits + s.thread.nbits
      posted := s.written.length }
    else none
  | .leave =>
    if s.thread.pc = .top then some { s with thread := { s.thread with pc := .drain } } else none
  | .drain n =>
    if s.thread.pc = .drain then
      if nmTxPending s.ring then
        if s.reclaimed + n ≤ s.transmitted then some (s.giveBack n) else none
      else some { s with thread := { s.thread with pc := .done } }
    else none
  | .transmit =>
    if s.transmitted < s.posted then some { s with
      transmitted := s.transmitted + 1
      sent := s.sent ++ [s.ring.slot (s.transmitted % s.ring.numSlots)] }
    else none

/-! ### The packets -/

/-- The bytes that the NIC fetches for a slot, when the memory of the context is physically
contiguous. -/
def dma (mem : PopMem) (m : Bytes.Mem) (slot : NetmapSlot) : List (BitVec 8) :=
  (List.range slot.len.toNat).map fun j => m (mem.mem.toNat + (slot.ptr.toNat + j - mem.paddr.toNat))

/-- Packet `b` as `build_packet` has left it. -/
def builtPacket (gen : NmgenParam) (cpu : Nat) (rand : Nat → BitVec 31) (data : Nat) (m : Bytes.Mem)
    (b : Nat) : List (BitVec 8) :=
  (List.range gen.len.toNat).map fun j => buildPackets gen cpu rand data m (b + 1) (data + frameSize * b + j)

/-- The loop of a sender with this buffer, whose packets are every 2048 bytes. -/
def senderConf (gen : NmgenParam) (nsPhyIndirect : BitVec 16) (mem : PopMem)
    (pbuf : Pbuf) : SendConf :=
  ⟨gen, nsPhyIndirect, fun n => popVirtToPhys mem (popBufData pbuf + BitVec.ofNat 64 (frameSize * n))⟩

end Libpop.Nmgen

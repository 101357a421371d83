import Libpop.Generator

/-!
# A thread of generator and the NIC

The iterations of `thread_body` of `apps/generator.c` with the NIC that sends from the memory the
slots point at. The NIC takes the slots up to the head in order, between the iterations or while
`NIOCTXSYNC` is under way, and what it finds in a frame is what the frame holds at that time.
`NIOCTXSYNC` gives slots back some time after they were sent.
-/

namespace Libpop.Generator
open Bytes

/-- The 2 KiB of memory from `addr` on. -/
def frameBytes (m : Mem) (addr : Nat) : List (BitVec 8) :=
  (List.range frameSize).map fun i => m (addr + i)

/-- The frame of a thread that a physical address points at. -/
def frameBehind (p : GenParam) (g : GenBuffers) (ptr : BitVec 64) : Option (Nat × Nat) :=
  ((List.range p.nvbatch).flatMap fun vb => (List.range p.batch).map fun b => (vb, b)).find?
    fun x => popVirtToPhys g.mem (g.pkt x.1 x.2) = ptr

/-- The frames that the commands of an iteration ask for, in the order of the commands. -/
def readFrames (p : GenParam) (nvbatch rest : Nat) (reads : List GenRead) : List (GenRead × Nat) :=
  reads.flatMap fun read => (List.range (p.batchOf nvbatch rest read.vb)).map fun b => (read, b)

/-- Where a frame is on the device. -/
def deviceAddr (p : GenParam) (x : GenRead × Nat) : Nat :=
  x.1.lba.toNat * p.blocksize + frameSize * x.2

/-- A packet that goes out: the slot as the NIC finds it and the memory behind its address. -/
structure Sent where
  slot : NetmapSlot
  frame : List (BitVec 8)

/-- The thread, every slot that it has filled, where on the device the frames asked for are, how
many slots the NIC has sent and netmap has given back, and what the NIC has sent. -/
structure GenTx where
  thread : GenThread
  written : List Fill
  asked : List Nat
  transmitted : Nat
  reclaimed : Nat
  sent : List Sent

/-- Thread `n` with a ring that has just been opened. -/
def genTxInit (p : GenParam) (n numSlots : Nat) (slot : Nat → NetmapSlot)
    (bufs : Nat → Mem) : GenTx :=
  { thread := spawn p n ⟨numSlots, 0, 0, numSlots - 1, slot⟩ bufs
    written := [], asked := [], transmitted := 0, reclaimed := 0, sent := [] }

/-- The NIC sends the next slot. -/
def GenTx.transmit (p : GenParam) (g : GenBuffers) (s : GenTx) : GenTx :=
  let slot := s.thread.ring.slot (s.transmitted % s.thread.ring.numSlots)
  let frame := match frameBehind p g slot.ptr with
    | none => []
    | some (vb, b) => frameBytes (s.thread.bufs vb) (frameSize * b)
  { s with transmitted := s.transmitted + 1, sent := s.sent ++ [⟨slot, frame⟩] }

def GenTx.transmits (p : GenParam) (g : GenBuffers) (s : GenTx) : Nat → GenTx
  | 0 => s
  | n + 1 => (s.transmits p g n).transmit p g

/-- `iterate` is an iteration with the values of `rand()` and of the polls and with what its
`NIOCTXSYNC` does: how many slots the NIC sends meanwhile and how many are given back, `none` for
an error. -/
inductive GenTxOp
  | iterate (rand : Nat → BitVec 31) (poll : Nat → Int) (sync : Option (Nat × Nat))
  | transmit

/-- What an iteration adds. -/
def GenTx.fill (p : GenParam) (s : GenTx) (t : GenThread) : GenTx :=
  let plan := p.plan (nmRingSpace s.thread.ring)
  { s with
    thread := t
    written := s.written ++ t.fills
    asked := s.asked ++ (readFrames p plan.1 plan.2 t.reads).map (deviceAddr p) }

/-- The answers of the system to an iteration. -/
def genEnv (r : NetmapRing) (rand : Nat → BitVec 31) (poll : Nat → Int)
    (sync : Option (Nat × Nat)) : GenEnv :=
  ⟨rand, poll, sync.map fun (_, n) => (r.tail + n) % r.numSlots⟩

def genTxStep (p : GenParam) (g : GenBuffers) (disk : Mem) (s : GenTx) : GenTxOp → Option GenTx
  | .iterate rand poll sync =>
    match threadBody p g disk s.thread (genEnv s.thread.ring rand poll sync) with
    | none => none
    | some t => match sync with
      | none => some (s.fill p t)
      | some (k, n) =>
        if s.transmitted + k ≤ (s.fill p t).written.length ∧ s.reclaimed + n ≤ s.transmitted + k then
          some { (s.fill p t).transmits p g k with reclaimed := s.reclaimed + n }
        else none
  | .transmit => if s.transmitted < s.written.length then some (s.transmit p g) else none

end Libpop.Generator

import Libpop.Packet
import Libpop.Transmit

/-!
# nvgen from the NVMe device to the wire

The sender threads, the NIC and an NVMe device with fixed contents. A packet is half a block
of the device, so the reads of the NVMe thread, in the order in which they are issued, ask for
a stream of packets.
-/

namespace Libpop

variable {α : Type}

/-- The packets that a read asks for, from a device that is given by the halves of its blocks. -/
def Aread.packets (disk : Nat → α) (read : Aread) : List α :=
  (List.range (2 * read.nblocks.toNat)).map fun k => disk (2 * read.lba.toNat + k)

def packetStream (disk : Nat → α) (reads : List Aread) : List α :=
  reads.flatMap (Aread.packets disk)

/-- The system of the threads, the device and the NIC, and all reads in the order of their issue. -/
structure WireState (α : Type) where
  tx : TxState α
  reads : List Aread

def wireInit (conf : NvgenConf) (frames : Nat → α) : WireState α :=
  ⟨txInit conf frames, []⟩

inductive WireOp
  | unvme (op : UnvmeOp)
  | arrive (i : Nat)
  | netmap (op : NetmapOp)
  | post
  | transmit

/-- What the device writes to a slot when the `i`-th outstanding read is served. -/
def TxState.served (s : TxState α) (disk : Nat → α) (i x : Nat) : α :=
  match s.outstanding[i]? with
  | none => s.frames x
  | some (_, read) => disk (2 * read.lba.toNat + (x - read.slot.toNat))

def WireOp.toTx (disk : Nat → α) (s : TxState α) : WireOp → TxOp α
  | .unvme op => .unvme op
  | .arrive i => .arrive i (s.served disk i)
  | .netmap op => .netmap op
  | .post => .post
  | .transmit => .transmit

def WireOp.issued (conf : NvgenConf) (s : TxState α) : WireOp → Option Aread
  | .unvme op => issuedBy conf s.threads op
  | _ => none

def wireStep (conf : NvgenConf) (numSlots : Nat) (disk : Nat → α) (s : WireState α) (op : WireOp) :
    Option (WireState α) :=
  match txStep conf numSlots s.tx (op.toTx disk s.tx) with
  | none => none
  | some tx => some ⟨tx, s.reads ++ (op.issued conf s.tx).toList⟩

/-! ### Bytes -/

/-- Half a block of 4 KiB of a device. -/
def frameAt (device : Bytes.Mem) (half : Nat) : List (BitVec 8) :=
  (List.range frameSize).map fun i => device (frameSize * half + i)

/-- What the NIC takes from a frame: `slot->len` bytes, a `uint16_t` set from the descriptor. -/
def slotBytes (frame : List (BitVec 8)) : List (BitVec 8) :=
  frame.take ((getPktlenFromDesc (fun i => frame.getD i 0) 0).setWidth 16).toNat

end Libpop

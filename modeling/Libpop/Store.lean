import Libpop.Buf
import Libpop.Packet

/-!
# The writer of frames

Embedding of `apps/store.c`. Each pass of the main loop builds a batch of frames in one
buffer and writes the buffer to the disk. The sizes are computed in `int`.
-/

namespace Libpop.Store
open Bytes

/-- `build_pkt`, which ends with the descriptor. -/
def buildPkt (m : Mem) (buf len : Nat) (id : BitVec 32) : Mem :=
  setPktlenInDesc (buildUdpPkt ⟨[0, 0, 0, 0, 0, 0], 0, id.setWidth 16⟩ m buf len) buf
    (BitVec.ofNat 32 len)

/-- The options, as the parser admits them, and the block size of the namespace. -/
structure StoreParam where
  pktlen : Nat
  batch : BitVec 32
  lbaStart : BitVec 64
  lbaEnd : BitVec 64
  blockshift : Nat
  pktlen_ge : 64 ≤ pktlen
  pktlen_le : pktlen ≤ 1500
  batch_nonneg : batch.toNat < 2 ^ 31

/-- Frames of the default length from LBA 0 on. -/
def StoreParam.ofBatch (batch : BitVec 32) (lbaEnd : BitVec 64) (blockshift : Nat)
    (h : batch.toNat < 2 ^ 31) : StoreParam :=
  ⟨64, batch, 0, lbaEnd, blockshift, by decide, by decide, h⟩

def StoreParam.buflen (p : StoreParam) : BitVec 32 :=
  2048 * p.batch

def StoreParam.nblocks (p : StoreParam) : BitVec 32 :=
  p.buflen.sshiftRight p.blockshift

/-- What the buffer is allocated for and filled with, an `int` made a `size_t`. -/
def StoreParam.poplen (p : StoreParam) : BitVec 64 :=
  (p.nblocks <<< p.blockshift).signExtend 64

/-- The buffer of a run. The program does not look at the result of `pop_buf_alloc`. -/
def storeAlloc (p : StoreParam) (addr : BitVec 64) (mem : PopMem) (malloc : Bool) :
    Option (PopMem × Except AllocError Pbuf) :=
  popBufAllocPut addr mem p.poplen malloc

/-- The main loop: its variables, the buffer from `pop_buf_data` on, the disk, and the disk
addresses of the frames written so far. -/
structure StoreState where
  lba : BitVec 64
  num : BitVec 64
  pbuf : Mem
  disk : Mem
  frames : List Nat
  failed : Bool

def storeInit (p : StoreParam) (pbuf disk : Mem) : StoreState :=
  ⟨p.lbaStart, 0, pbuf, disk, [], false⟩

/-- The loop is entered once there is a buffer. Where `pop_buf_alloc` gives a null pointer the
program dies in `pop_buf_put`, and where its page count never ends it does not get there. -/
def storeStart (p : StoreParam) (addr : BitVec 64) (mem : PopMem) (malloc : Bool)
    (pbuf disk : Mem) : Option StoreState :=
  match storeAlloc p addr mem malloc with
  | some (_, .ok _) => some (storeInit p pbuf disk)
  | _ => none

/-- The inner loop after `n` iterations. -/
def buildFrames (p : StoreParam) (lba : BitVec 64) (m : Mem) : Nat → Mem
  | 0 => m
  | b + 1 =>
    buildPkt (buildFrames p lba m b) (frameSize * b) p.pktlen
      ((lba + BitVec.ofNat 64 b).setWidth 32)

/-- How many of the frames of a pass are in the blocks that it writes. -/
def StoreParam.passFrames (p : StoreParam) : Nat :=
  min p.batch.toNat (p.nblocks.toNat * 2 ^ p.blockshift / frameSize)

/-- One pass, given what `unvme_write` returns. -/
def storeStep (p : StoreParam) (s : StoreState) (ret : Int) : Option StoreState :=
  if s.failed = false ∧ s.lba < p.lbaEnd then
    let pbuf := buildFrames p s.lba s.pbuf p.batch.toNat
    let num := s.num + p.batch.setWidth 64
    if ret ≠ 0 then some { s with pbuf := pbuf, num := num, failed := true }
    else
      let addr := s.lba.toNat * 2 ^ p.blockshift
      some { lba := s.lba + p.nblocks.signExtend 64, num := num, pbuf := pbuf, failed := false
             disk := copy s.disk addr pbuf 0 (p.nblocks.toNat * 2 ^ p.blockshift)
             frames := s.frames ++ (List.range p.passFrames).map fun b => addr + frameSize * b }
  else none

end Libpop.Store

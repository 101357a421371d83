import Mathlib.Logic.Function.Basic
import Libpop.Netmap
import Libpop.Packet

/-!
# The threads of generator

Embedding of `thread_body` of `apps/generator.c` with the options and LBA ranges it reads.
An iteration issues read commands into the buffers of the thread, polls for them in order
and puts the frames of each completed read into the slots of a netmap ring. The data of a
read is in its buffer once the poll for it has succeeded.
-/

namespace Libpop.Generator
open Bytes

inductive Walk
  | seq
  | random
  deriving DecidableEq

/-- The options, as the parser admits them, and the block size of the namespace. -/
structure GenParam where
  batch : Nat
  nvbatch : Nat
  ncpus : Nat
  walk : Walk
  lbaStart : BitVec 64
  lbaEnd : BitVec 64
  fakePacket : Bool
  blockshift : Nat
  batch_pos : 1 ≤ batch
  batch_le : batch ≤ 32
  nvbatch_pos : 1 ≤ nvbatch
  nvbatch_le : nvbatch ≤ 64
  ncpus_pos : 1 ≤ ncpus
  ncpus_le : ncpus ≤ 32

namespace GenParam

/-- Options that pass the checks of the parser. -/
def ofOptions (batch nvbatch ncpus : Nat) (walk : Walk) (lbaStart lbaEnd : BitVec 64)
    (fakePacket : Bool) (blockshift : Nat)
    (h : (1 ≤ batch ∧ batch ≤ 32) ∧ (1 ≤ nvbatch ∧ nvbatch ≤ 64) ∧ 1 ≤ ncpus ∧ ncpus ≤ 32) :
    GenParam :=
  ⟨batch, nvbatch, ncpus, walk, lbaStart, lbaEnd, fakePacket, blockshift,
    h.1.1, h.1.2, h.2.1.1, h.2.1.2, h.2.2.1, h.2.2.2⟩

def bpkts (p : GenParam) : Nat :=
  p.batch * p.nvbatch

def blocksize (p : GenParam) : Nat :=
  2 ^ p.blockshift

/-- `NM_BATCH_TO_NBLOCKS(gen.batch, gen.unvme)`. -/
def nblocks (p : GenParam) : Nat :=
  if p.blocksize ≤ p.batch <<< 11 then (p.batch <<< 11) >>> p.blockshift else 1

/-- The range of thread `n`, from `lba_start` to `lba_end`. -/
def range (p : GenParam) (n : Nat) : BitVec 64 × BitVec 64 :=
  let width := (p.lbaEnd - p.lbaStart) / BitVec.ofNat 64 p.ncpus
  (width * BitVec.ofNat 64 n, width * BitVec.ofNat 64 (n + 1))

/-- How many commands an iteration issues for `space` free slots, and `rest`. -/
def plan (p : GenParam) (space : Nat) : Nat × Nat :=
  if p.bpkts ≤ space then (p.nvbatch, 0) else (space / p.batch + 1, space % p.batch)

/-- The frames that command `vb` of an iteration is used for. -/
def batchOf (p : GenParam) (nvbatch rest vb : Nat) : Nat :=
  if rest = 0 ∨ vb + 1 < nvbatch then p.batch else rest

end GenParam

/-- `next_lba`, given the value of `rand()`; `none` for a division by zero. -/
def nextLba (walk : Walk) (lba lbaStart lbaEnd nblocks : BitVec 64)
    (rand : BitVec 31) : Option (BitVec 64) :=
  match walk with
  | .seq => some (if lba + nblocks < lbaEnd then lba + nblocks else lbaStart)
  | .random =>
    let range := lbaEnd - lbaStart - nblocks
    if range = 0 then none else some (rand.setWidth 64 % range + lbaStart)

/-- One `unvme_aread` into `bufs[vb]`. -/
structure GenRead where
  vb : Nat
  lba : BitVec 64
  nblocks : Nat
  deriving DecidableEq

/-- The submit loop from command `vb` on, with `n` commands to go. -/
def submit (p : GenParam) (lbaStart lbaEnd : BitVec 64) (rand : Nat → BitVec 31) :
    Nat → Nat → BitVec 64 → Option (List GenRead × BitVec 64)
  | _, 0, lba => some ([], lba)
  | vb, n + 1, lba =>
    match nextLba p.walk lba lbaStart lbaEnd (BitVec.ofNat 64 p.nblocks) (rand vb) with
    | none => none
    | some next => match submit p lbaStart lbaEnd rand (vb + 1) n next with
      | none => none
      | some (reads, last) => some (⟨vb, lba, p.nblocks⟩ :: reads, last)

/-- What a thread has from its set-up: the context and `pop_buf_data` of each of its buffers.
The value of `NS_PHY_INDIRECT` is netmap's. -/
structure GenBuffers where
  mem : PopMem
  data : Nat → BitVec 64
  nsPhyIndirect : BitVec 16

/-- `pkts[vb][b]`. -/
def GenBuffers.pkt (g : GenBuffers) (vb b : Nat) : BitVec 64 :=
  g.data vb + BitVec.ofNat 64 (frameSize * b)

/-- `build_pkt`. -/
def buildPkt (m : Mem) (buf len : Nat) (id : BitVec 32) : Mem :=
  buildUdpPkt ⟨[1, 2, 3, 4, 5, 6], 0x10, (id + 60000).setWidth 16⟩ m buf len

/-- A ring slot that was filled, and the frame it was filled with. -/
structure Fill where
  index : Nat
  vb : Nat
  b : Nat
  slot : NetmapSlot
  deriving DecidableEq

/-- Variables of the fill loop: the local `head`, the slots of the ring, the contents of the
buffers and the counters. -/
structure Filling where
  head : Nat
  slot : Nat → NetmapSlot
  bufs : Nat → Mem
  ncmds : Nat
  nbytes : Nat
  fills : List Fill

/-- The body of the inner loop. -/
def fillSlot (p : GenParam) (g : GenBuffers) (r : NetmapRing) (vb b : Nat)
    (f : Filling) : Filling :=
  let buf := frameSize * b
  let frames := if p.fakePacket then
      setPktlenInDesc (buildPkt (f.bufs vb) buf 1500 (BitVec.ofNat 32 b)) buf 1500
    else f.bufs vb
  let slot : NetmapSlot :=
    { flags := (f.slot f.head).flags ||| g.nsPhyIndirect
      ptr := popVirtToPhys g.mem (g.pkt vb b)
      len := (getPktlenFromDesc frames buf).setWidth 16 }
  { f with
    head := nmRingNext r f.head, slot := Function.update f.slot f.head slot
    bufs := Function.update f.bufs vb frames, nbytes := f.nbytes + slot.len.toNat
    fills := f.fills ++ [⟨f.head, vb, b, slot⟩] }

/-- The inner loop after `n` iterations. -/
def fillBatch (p : GenParam) (g : GenBuffers) (r : NetmapRing) (vb : Nat)
    (f : Filling) : Nat → Filling
  | 0 => f
  | b + 1 => fillSlot p g r vb b (fillBatch p g r vb f b)

/-- The data of the read into `bufs[vb]` arrives. -/
def arrive (p : GenParam) (disk : Mem) (reads : List GenRead) (vb : Nat) (f : Filling) : Filling :=
  match reads.find? (fun read => read.vb == vb) with
  | none => f
  | some read => { f with
      bufs := Function.update f.bufs vb
        (copy (f.bufs vb) 0 disk (read.lba.toNat * p.blocksize) (read.nblocks * p.blocksize)) }

/-- The fill loop after `n` iterations, given what `unvme_apoll` returns for each command. -/
def fillLoop (p : GenParam) (g : GenBuffers) (r : NetmapRing) (disk : Mem) (reads : List GenRead)
    (poll : Nat → Int) (nvbatch rest : Nat) (f : Filling) : Nat → Filling
  | 0 => f
  | vb + 1 =>
    let f := fillLoop p g r disk reads poll nvbatch rest f vb
    if poll vb ≠ 0 then f
    else
      let f := arrive p disk reads vb f
      fillBatch p g r vb { f with ncmds := f.ncmds + 1 } (p.batchOf nvbatch rest vb)

/-- The state of a thread between iterations, with the commands and the filled slots of the
last one. -/
structure GenThread where
  running : Bool
  lbaStart : BitVec 64
  lbaEnd : BitVec 64
  lba : BitVec 64
  ring : NetmapRing
  bufs : Nat → Mem
  npkts : BitVec 64
  nbytes : BitVec 64
  ncmds : BitVec 64
  nbytesNvme : BitVec 64
  noSlot : BitVec 64
  reads : List GenRead
  fills : List Fill

/-- Thread `n` after its set-up, with a netmap ring and whatever its buffers hold. -/
def spawn (p : GenParam) (n : Nat) (ring : NetmapRing) (bufs : Nat → Mem) : GenThread :=
  ⟨true, (p.range n).1, (p.range n).2, (p.range n).1, ring, bufs, 0, 0, 0, 0, 0, [], []⟩

/-- Answers of the system in one iteration. `txsync` is `none` when the ioctl fails and else
the tail of the ring after it. -/
structure GenEnv where
  rand : Nat → BitVec 31
  poll : Nat → Int
  txsync : Option Nat

/-- The end of an iteration, from `sync_out` on. -/
def syncOut (p : GenParam) (env : GenEnv) (space npkts nbytes ncmds nbytesNvme : Nat)
    (th : GenThread) : GenThread :=
  let ring := if space < p.bpkts then { th.ring with cur := th.ring.tail } else th.ring
  match env.txsync with
  | none => { th with ring := ring, running := false }
  | some tail => { th with
      ring := { ring with tail := tail }
      npkts := th.npkts + BitVec.ofNat 64 npkts, nbytes := th.nbytes + BitVec.ofNat 64 nbytes
      ncmds := th.ncmds + BitVec.ofNat 64 ncmds
      nbytesNvme := th.nbytesNvme + BitVec.ofNat 64 nbytesNvme }

/-- One iteration of the loop. -/
def threadBody (p : GenParam) (g : GenBuffers) (disk : Mem) (th : GenThread)
    (env : GenEnv) : Option GenThread :=
  if th.running = false then none
  else
    let space := nmRingSpace th.ring
    if space = 0 then
      some (syncOut p env space 0 0 0 0 { th with noSlot := th.noSlot + 1, reads := [], fills := [] })
    else
      let (nvbatch, rest) := p.plan space
      match (if p.fakePacket then some ([], th.lba)
        else submit p th.lbaStart th.lbaEnd env.rand 0 nvbatch th.lba) with
      | none => none
      | some (reads, lba) =>
        let f := fillLoop p g th.ring disk reads env.poll nvbatch rest
          ⟨th.ring.head, th.ring.slot, th.bufs, 0, 0, []⟩ nvbatch
        some (syncOut p env space f.fills.length f.nbytes f.ncmds
          (reads.length * (p.nblocks <<< p.blockshift))
          { th with lba := lba, reads := reads, fills := f.fills, bufs := f.bufs
                    ring := { th.ring with head := f.head, cur := f.head, slot := f.slot } })

end Libpop.Generator

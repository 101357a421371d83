import Libpop.Word

/-!
# The sender threads of nvgen

Embedding of the transmit side of `apps/nvgen.c`. An NVMe thread fills 2 KiB slots and a
netmap thread hands them to the NIC; a ring of two indices connects them. Each thread is a
step function over its locals, one step for each access to the ring that the other thread
can see and for each iteration of a loop in between. The NVMe thread alone writes
`ring.head` and the netmap thread alone writes `ring.tail`, so a thread reads its own index
in the step in which it reads the other's.
-/

namespace Libpop

def slotNum : Nat := 256

/-- `struct nvgen_ring`. -/
structure NvgenRing where
  head : BitVec 32
  tail : BitVec 32
  mask : BitVec 32
  deriving DecidableEq

def nvgenRingInit : NvgenRing :=
  ⟨0, 0, BitVec.ofNat 32 (slotNum - 1)⟩

namespace NvgenRing

def writeNextBatch (r : NvgenRing) (head batch : BitVec 32) : BitVec 32 :=
  (head + batch) &&& r.mask

def readNext (r : NvgenRing) (tail : BitVec 32) : BitVec 32 :=
  (tail + 1) &&& r.mask

/-- The macro `ring_read_avail`. The difference is unsigned and never below 0. -/
def readAvail (r : NvgenRing) : BitVec 32 :=
  if r.head - r.tail < 0 then r.head - r.tail + BitVec.ofNat 32 slotNum else r.head - r.tail

/-- `ring_write_avail`, with `remain` as an `int`. -/
def writeAvail (r : NvgenRing) : BitVec 32 :=
  let remain := r.tail - r.head
  if remain = 0 then BitVec.ofNat 32 slotNum
  else if remain.slt 0 then remain + BitVec.ofNat 32 (slotNum - 1)
  else remain

end NvgenRing

inductive WalkMode
  | seq
  | random
  | same
  deriving DecidableEq

/-- The options and the LBA range that the sender threads of one CPU read. -/
structure NvgenConf where
  batch : BitVec 32
  nvbatch : BitVec 32
  walk : WalkMode
  lbaStart : BitVec 64
  lbaEnd : BitVec 64
  deriving DecidableEq

/-- The options of a transmit run, as the parser admits them. A negative `nvbatch` is taken as an
`unsigned int` where it is compared. -/
structure NvgenParam where
  batch : BitVec 32
  nvbatch : BitVec 32
  walk : WalkMode
  ncpus : Nat
  lbaEnd : BitVec 64
  batch_le : batch.toInt ≤ 64
  nvbatch_le : nvbatch.toInt ≤ 128
  ncpus_le : ncpus ≤ 32

/-- What the threads of `cpu` read after `nvgen_init_thread_body`. -/
def NvgenParam.conf (p : NvgenParam) (cpu : Nat) : NvgenConf :=
  let width := p.lbaEnd / BitVec.ofNat 64 p.ncpus
  ⟨p.batch, p.nvbatch, p.walk, width * BitVec.ofNat 64 cpu, width * BitVec.ofNat 64 (cpu + 1)⟩

/-- `next_lba`, given the value of `rand()`; `none` for a division by zero. -/
def nextLba (walk : WalkMode) (lba lbaStart lbaEnd nblocks : BitVec 64)
    (rand : BitVec 31) : Option (BitVec 64) :=
  match walk with
  | .seq => some (if lba + (nblocks <<< 1) < lbaEnd then lba + nblocks else lbaStart)
  | .random =>
    let range := lbaEnd - lbaStart - nblocks
    if range = 0 then none else some (rand.setWidth 64 % range + lbaStart)
  | .same => some lba

/-- One `unvme_aread`: `nblocks` blocks from `lba` on into the memory from `slots[slot]` on. -/
structure Aread where
  slot : BitVec 32
  lba : BitVec 32
  nblocks : BitVec 32
  deriving DecidableEq

inductive UnvmePc
  | top
  | issue
  | poll
  | publish
  | done
  deriving DecidableEq

/-- Locals of `nvgen_sender_unvme_body` and its byte counter. -/
structure UnvmeThread where
  pc : UnvmePc
  lba : BitVec 32
  batch : BitVec 32
  nblocks : BitVec 32
  head : BitVec 32
  b : BitVec 32
  nbytes : BitVec 64
  deriving DecidableEq

def unvmeInit (conf : NvgenConf) : UnvmeThread :=
  ⟨.top, conf.lbaStart.setWidth 32, 0, 0, 0, 0, 0⟩

inductive UnvmeOp
  | avail
  | aread (rand : BitVec 31)
  | apoll (ret : Int)
  | publish
  | leave

/-- The number of commands and of blocks in each for a pass that found `space` slots. -/
def passPlan (conf : NvgenConf) (space : BitVec 32) : Option (BitVec 32 × BitVec 32) :=
  let space := space &&& ~~~1#32
  let batch := if space >>> 1 > conf.nvbatch then conf.nvbatch else space >>> 1
  match conf.walk with
  | .seq => some (1, batch)
  | .random => some (batch, 1)
  | .same => none

/-- Where a pass goes on when the loop of its `b`-th iteration is over. -/
def afterIssue (t : UnvmeThread) : UnvmeThread :=
  if t.b < t.batch then { t with pc := .issue }
  else if 0 < t.batch then { t with pc := .poll, b := 0 }
  else { t with pc := .publish, b := 0 }

def afterPoll (t : UnvmeThread) : UnvmeThread :=
  if t.b < t.batch then { t with pc := .poll } else { t with pc := .publish }

/-- A step of the NVMe thread, with the read command it issues. -/
def unvmeStep (conf : NvgenConf) (ring : NvgenRing) (t : UnvmeThread) (op : UnvmeOp) :
    Option (NvgenRing × UnvmeThread × Option Aread) :=
  match t.pc, op with
  | .top, .avail =>
    if ring.writeAvail < 2 then some (ring, t, none)
    else match passPlan conf ring.writeAvail with
      | none => some (ring, { t with pc := .done }, none)
      | some (batch, nblocks) =>
        some (ring, afterIssue { t with batch := batch, nblocks := nblocks, head := ring.head, b := 0 }, none)
  | .issue, .aread rand =>
    match nextLba conf.walk (t.lba.setWidth 64) conf.lbaStart conf.lbaEnd (t.nblocks.setWidth 64) rand with
    | none => none
    | some lba =>
      some (ring, afterIssue { t with lba := lba.setWidth 32, b := t.b + 1
                                      head := ring.writeNextBatch t.head (t.nblocks <<< 1) },
        some ⟨t.head, t.lba, t.nblocks⟩)
  | .poll, .apoll ret =>
    let nbytes := if ret = 0 then t.nbytes + (t.nblocks * 4096).setWidth 64 else t.nbytes
    some (ring, afterPoll { t with nbytes := nbytes, b := t.b + 1 }, none)
  | .publish, .publish => some ({ ring with head := t.head }, { t with pc := .top }, none)
  | .top, .leave => some (ring, { t with pc := .done }, none)
  | _, _ => none

inductive NetmapPc
  | top
  | slot
  | publish
  | done
  deriving DecidableEq

/-- Locals of `nvgen_sender_netmap_body`. -/
structure NetmapThread where
  pc : NetmapPc
  batch : BitVec 32
  tail : BitVec 32
  b : BitVec 32
  deriving DecidableEq

def netmapInit : NetmapThread :=
  ⟨.top, 0, 0, 0⟩

/-- `load` is the top of the loop with the result of its `NIOCTXSYNC`: the space in the netmap
ring, or `none` when the ioctl fails. -/
inductive NetmapOp
  | load (txsync : Option (BitVec 32))
  | slot
  | publish
  | leave

def afterSlot (t : NetmapThread) : NetmapThread :=
  if t.b < t.batch then { t with pc := .slot } else { t with pc := .publish }

/-- How many slots a pass of the netmap thread takes. -/
def netmapBatch (conf : NvgenConf) (space loaded : BitVec 32) : BitVec 32 :=
  let space := space &&& ~~~1#32
  let batch := if space > conf.batch then conf.batch else space
  if batch > loaded then loaded else batch

/-- A step of the netmap thread, with the slot it hands to netmap. -/
def netmapStep (conf : NvgenConf) (ring : NvgenRing) (t : NetmapThread) (op : NetmapOp) :
    Option (NvgenRing × NetmapThread × Option (BitVec 32)) :=
  match t.pc, op with
  | .top, .load txsync =>
    if ring.readAvail < 2 then some (ring, t, none)
    else match txsync with
      | none => some (ring, { t with pc := .done }, none)
      | some space =>
        if space = 0 then some (ring, t, none)
        else
          let batch := netmapBatch conf space ring.readAvail
          some (ring, afterSlot { t with batch := batch, tail := ring.tail, b := 0 }, none)
  | .slot, .slot =>
    some (ring, afterSlot { t with tail := ring.readNext t.tail, b := t.b + 1 }, some t.tail)
  | .publish, .publish => some ({ ring with tail := t.tail }, { t with pc := .top }, none)
  | .top, .leave => some (ring, { t with pc := .done }, none)
  | _, _ => none

/-- The NVMe thread against any consumer: the ring, the locals and every read issued. -/
structure NvmeState where
  ring : NvgenRing
  unvme : UnvmeThread
  reads : List Aread
  deriving DecidableEq

def nvmeInit (conf : NvgenConf) : NvmeState :=
  ⟨nvgenRingInit, unvmeInit conf, []⟩

inductive NvmeOp
  | unvme (op : UnvmeOp)
  | consume (n : BitVec 32)

def nvmeStep (conf : NvgenConf) (s : NvmeState) : NvmeOp → Option NvmeState
  | .unvme op => match unvmeStep conf s.ring s.unvme op with
    | none => none
    | some (ring, t, read) => some ⟨ring, t, s.reads ++ read.toList⟩
  | .consume n => some { s with ring := { s.ring with tail := (s.ring.tail + n) &&& s.ring.mask } }

/-- The slots that a read fills, counted around the ring as `ring_write_next_batch` does. -/
def Aread.slots (read : Aread) (ring : NvgenRing) : List Nat :=
  (List.range (2 * read.nblocks.toNat)).map fun k => (ring.writeNextBatch read.slot (BitVec.ofNat 32 k)).toNat

/-- Both threads and what has passed through the ring: the slots filled in this pass, all
slots published, all slots handed to netmap, how many of these were released, and the
slots that were filled while published and not released. -/
structure RingState where
  ring : NvgenRing
  unvme : UnvmeThread
  netmap : NetmapThread
  filled : List Nat
  published : List Nat
  handed : List Nat
  released : Nat
  clobbered : List Nat
  deriving DecidableEq

def ringInit (conf : NvgenConf) : RingState :=
  ⟨nvgenRingInit, unvmeInit conf, netmapInit, [], [], [], 0, []⟩

/-- Slots published and not yet released. -/
def RingState.pending (s : RingState) : List Nat :=
  s.published.drop s.released

inductive RingOp
  | unvme (op : UnvmeOp)
  | netmap (op : NetmapOp)

/-- The next step of one of the two threads. -/
def ringStep (conf : NvgenConf) (s : RingState) : RingOp → Option RingState
  | .unvme op => match unvmeStep conf s.ring s.unvme op with
    | none => none
    | some (ring, t, some read) => some
        { s with ring := ring, unvme := t, filled := s.filled ++ read.slots s.ring
                 clobbered := s.clobbered ++ (read.slots s.ring).filter (· ∈ s.pending) }
    | some (ring, t, none) => match op with
      | .publish => some
          { s with ring := ring, unvme := t, published := s.published ++ s.filled, filled := [] }
      | _ => some { s with ring := ring, unvme := t }
  | .netmap op => match netmapStep conf s.ring s.netmap op with
    | none => none
    | some (ring, t, some slot) =>
      some { s with ring := ring, netmap := t, handed := s.handed ++ [slot.toNat] }
    | some (ring, t, none) => match op with
      | .publish => some { s with ring := ring, netmap := t, released := s.handed.length }
      | _ => some { s with ring := ring, netmap := t }

end Libpop

import Mathlib.Logic.Function.Basic
import Libpop.Netmap

/-!
# Receive rings

Receive rings over pop memory, from `lib/pop_netmap.c`, and the loops that empty them there and
in the receivers of nvgen and nmgen. netmap answers a `NIOCRXSYNC` with new indices and the
lengths of the packets received; the flags and addresses of the slots are the application's.
-/

namespace Libpop

/-- What a `NIOCRXSYNC` leaves in a ring. -/
structure RxSync where
  head : Nat
  cur : Nat
  tail : Nat
  len : Nat → BitVec 16

def RxSync.apply (sync : RxSync) (r : NetmapRing) : NetmapRing :=
  { r with head := sync.head, cur := sync.cur, tail := sync.tail
           slot := fun i => { r.slot i with len := sync.len i } }

namespace NetmapRing

/-- `ring->head = ring->cur = nm_ring_next(ring, ring->head)`. -/
def release (r : NetmapRing) : NetmapRing :=
  { r with head := nmRingNext r r.head, cur := nmRingNext r r.head }

/-- A loop over the slots that rewrites each, after `n` iterations. -/
def forSlots (f : Nat → NetmapSlot → NetmapSlot) (r : NetmapRing) : Nat → NetmapRing
  | 0 => r
  | idx + 1 =>
    let r := r.forSlots f idx
    { r with slot := Function.update r.slot idx (f idx (r.slot idx)) }

/-- The flush loop of `pop_nm_rxring_init`. With its indices below `num_slots` a ring is empty after
fewer than `num_slots` iterations; a loop that goes on never ends. -/
def flush (r : NetmapRing) : Option NetmapRing :=
  Loop.whileLoop (fun r => !nmRingEmpty r) release r.numSlots r

end NetmapRing

/-! ### The receivers -/

/-- The drain loop of `nvgen_receiver_body` and of `nmgen_receiver_body`, which are the same: the
ring, the counters of the pass and the slots visited. -/
structure Drain where
  ring : NetmapRing
  npkts : BitVec 64
  nbits : BitVec 64
  visited : List Nat

def drainBody (s : Drain) : Drain :=
  { ring := s.ring.release
    npkts := s.npkts + 1
    nbits := s.nbits + (((s.ring.slot s.ring.head).len.setWidth 32) <<< 3).setWidth 64
    visited := s.visited ++ [s.ring.head] }

def receiverDrain (r : NetmapRing) : Option Drain :=
  Loop.whileLoop (fun s => !nmRingEmpty s.ring) drainBody r.numSlots ⟨r, 0, 0, []⟩

structure Receiver where
  ring : NetmapRing
  npkts : BitVec 64
  nbits : BitVec 64
  stopped : Bool

/-- A pass of the receive loop, given what its `NIOCRXSYNC` does, `none` for an error. -/
def receiverStep (s : Receiver) (sync : Option RxSync) : Option Receiver :=
  if s.stopped then none
  else match sync with
    | none => some { s with stopped := true }
    | some sync => match receiverDrain (sync.apply s.ring) with
      | none => none
      | some d =>
        some { s with ring := d.ring, npkts := s.npkts + d.npkts, nbits := s.nbits + d.nbits }

/-! ### Rings over pop memory -/

structure RxRing where
  ring : NetmapRing
  nrBufSize : BitVec 32
  numSlots_lt : ring.numSlots < 2 ^ 32

/-- The product of the two 32-bit fields. -/
def RxRing.bufBytes (r : RxRing) : BitVec 32 :=
  BitVec.ofNat 32 r.ring.numSlots * r.nrBufSize

def rxSlot (nsPhyIndirect : BitVec 16) (pbuf : Pbuf) (nrBufSize : BitVec 32) (idx : Nat)
    (slot : NetmapSlot) : NetmapSlot :=
  { slot with flags := slot.flags ||| nsPhyIndirect
              ptr := popBufPaddr pbuf + (nrBufSize * BitVec.ofNat 32 idx).setWidth 64 }

/-- The ring behind the slot loop of `pop_nm_rxring_init`. -/
def rxringSlots (nsPhyIndirect : BitVec 16) (pbuf : Pbuf) (r : RxRing) : NetmapRing :=
  r.ring.forSlots (rxSlot nsPhyIndirect pbuf r.nrBufSize) r.ring.numSlots

def rxringRewind (r : NetmapRing) : NetmapRing :=
  let last := (BitVec.ofNat 32 r.numSlots - 1).toNat
  { r with cur := last, head := last }

/-- Answers to one `pop_nm_rxring_init`: of the `malloc` in `pop_buf_alloc` and of its own, and of the
two calls of `NIOCRXSYNC`. -/
structure RxInitEnv where
  nsPhyIndirect : BitVec 16
  mallocPbuf : Bool
  malloc : Bool
  sync : RxSync
  flushed : RxSync

/-- How the call ends: with `pop_buf_put` on a null pointer, with NULL, or with a descriptor, of
which the buffer is kept here. -/
inductive RxInitRet
  | nullPbuf
  | null
  | rxring (pbuf : Pbuf)

structure RxInitOut where
  mem : PopMem
  ring : NetmapRing
  ret : RxInitRet

/-- `pop_nm_rxring_init` on the context at `addr`; `none` when the call does not return. -/
def popNmRxringInit (env : RxInitEnv) (r : RxRing) (addr : BitVec 64)
    (mem : PopMem) : Option RxInitOut :=
  match popBufAllocPut addr mem (r.bufBytes.setWidth 64) env.mallocPbuf with
  | none => none
  -- `pop_buf_put` comes before the test for a null pointer
  | some (mem, .error _) => some ⟨mem, r.ring, .nullPbuf⟩
  | some (mem, .ok pbuf) =>
    let ring := env.sync.apply (rxringRewind (rxringSlots env.nsPhyIndirect pbuf r))
    if env.malloc then match ring.flush with
      | none => none
      | some ring => some ⟨mem, env.flushed.apply ring, .rxring pbuf⟩
    else some ⟨mem, ring, .null⟩

/-- The slot loop of `pop_nm_rxring_exit`. -/
def popNmRxringExit (nsPhyIndirect : BitVec 16) (r : NetmapRing) : NetmapRing :=
  r.forSlots (fun _ slot => { slot with flags := slot.flags &&& ~~~nsPhyIndirect, ptr := 0 }) r.numSlots

def popNmRxringBuf (pbuf : Pbuf) (nrBufSize idx : BitVec 32) : BitVec 64 :=
  popBufData pbuf + (nrBufSize * idx).setWidth 64

end Libpop

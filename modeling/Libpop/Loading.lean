import Libpop.Transmit

/-!
# The loads of nvgen

The sender threads of nvgen with the results of their polls. A slot is loaded when a read into it
is polled with status 0, until the netmap thread releases it; a pass of the NVMe thread makes its
slots visible by one store to `ring.head`.
-/

namespace Libpop

/-- The slots that an index of the ring passes on its way from `start` to `stop`. -/
def NvgenRing.slotsBetween (r : NvgenRing) (start stop : BitVec 32) : List Nat :=
  (List.range ((stop - start) &&& r.mask).toNat).map fun k =>
    (r.writeNextBatch start (BitVec.ofNat 32 k)).toNat

/-- Both threads, the reads of this pass and the results of its polls so far, the slots loaded and
not released since, and those that became visible without being loaded. -/
structure LoadState where
  threads : RingState
  reads : List Aread
  rets : List Int
  loaded : List Nat
  stale : List Nat
  deriving DecidableEq

def loadInit (conf : NvgenConf) : LoadState :=
  ⟨ringInit conf, [], [], [], []⟩

namespace LoadState

/-- The slots loaded by the read that is polled next, when the poll returns `ret`. -/
def loadedBy (s : LoadState) (ret : Int) : List Nat :=
  match s.reads[s.threads.unvme.b.toNat]? with
  | none => []
  | some read => if ret = 0 then read.target else []

/-- What becomes of the loads in a step that leaves `threads`. -/
def record (conf : NvgenConf) (s : LoadState) (threads : RingState) : RingOp → LoadState
  | .unvme (.apoll ret) => { s with
      threads := threads, rets := s.rets ++ [ret], loaded := s.loaded ++ s.loadedBy ret }
  | .unvme .publish => { s with
      threads := threads, reads := [], rets := []
      stale := s.stale ++
        (s.threads.ring.slotsBetween s.threads.ring.head threads.ring.head).filter (· ∉ s.loaded) }
  | .unvme op =>
    { s with threads := threads, reads := s.reads ++ (issuedBy conf s.threads op).toList }
  | .netmap .publish => { s with
      threads := threads
      loaded := s.loaded.filter
        (· ∉ s.threads.ring.slotsBetween s.threads.ring.tail threads.ring.tail) }
  | .netmap _ => { s with threads := threads }

end LoadState

def loadStep (conf : NvgenConf) (s : LoadState) (op : RingOp) : Option LoadState :=
  match ringStep conf s.threads op with
  | none => none
  | some threads => some (s.record conf threads op)

end Libpop

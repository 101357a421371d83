import Libpop.Buf
import Libpop.Exchange

/-!
# The memory benchmark

Embedding of `apps/mb.c`: the buffer, the memory operations of its copy loops, and the sort and
the extremes of the times that the loops took. The times are elements of any linear order;
the sums, averages and deviations are not modelled.
-/

namespace Libpop.Mb

inductive Direction
  | write
  | read
  deriving DecidableEq

/-- The options of `main`. They are not checked; without a PCI slot the memory is hugepages. -/
structure MbParam where
  nwrite : BitVec 32
  nloop : BitVec 32
  size : BitVec 32
  hugepage : Bool
  dir : Direction
  deriving DecidableEq

/-- The cache lines of a block. -/
def MbParam.nline (p : MbParam) : BitVec 32 :=
  if p.size.srem 64 ≠ 0 then p.size.sdiv 64 + 1 else p.size.sdiv 64

/-- `size * nwrite` as the argument of `pop_buf_alloc` and `pop_buf_put`. -/
def MbParam.poplen (p : MbParam) : BitVec 64 :=
  (p.size * p.nwrite).signExtend 64

def mbAlloc (p : MbParam) (addr : BitVec 64) (mem : PopMem) (malloc : Bool) :
    Option (PopMem × Except AllocError Pbuf) :=
  popBufAllocPut addr mem p.poplen malloc

/-! ### The copy loops -/

inductive MemOp
  | memcpy (dst src len : BitVec 64)
  | clflushopt (addr : BitVec 64)
  deriving DecidableEq

def clflushOpt (addr nline : BitVec 64) : List MemOp :=
  (List.range nline.toNat).map fun li => .clflushopt (addr + BitVec.ofNat 64 (li * 64))

/-- The body of the inner loop. It does not read `i`. -/
def mbCopy (p : MbParam) (addr src : BitVec 64) : List MemOp :=
  let target := addr + (p.nwrite * p.size).signExtend 64
  let flush := if p.hugepage then clflushOpt target (p.nline.signExtend 64) else []
  match p.dir with
  | .write => .memcpy target src (p.size.signExtend 64) :: flush
  | .read => flush ++ [.memcpy src target (p.size.signExtend 64)]

def mbLoop (p : MbParam) (addr src : BitVec 64) : List MemOp :=
  (List.range p.nwrite.toInt.toNat).flatMap fun _ => mbCopy p addr src

/-- The operations of each of the `nloop` loops. -/
def mbRun (p : MbParam) (addr src : BitVec 64) : List (List MemOp) :=
  List.replicate p.nloop.toInt.toNat (mbLoop p addr src)

/-! ### The sort -/

section Samples

variable {α : Type*} [LinearOrder α] {nloop : Nat}

/-- The inner loop of the sort with `i` to go, down to `n`. -/
def sortInner (n : Nat) : (i : Nat) → i < nloop → Vector α nloop → Vector α nloop
  | 0, _, elapsed => elapsed
  | i + 1, h, elapsed =>
    if i + 1 > n then sortInner n i (Nat.lt_of_succ_lt h) (Exchange.exchange elapsed (i + 1) h) else elapsed

/-- The outer loop of the sort after `n` iterations. -/
def sortOuter : (n : Nat) → n ≤ nloop → Vector α nloop → Vector α nloop
  | 0, _, elapsed => elapsed
  | n + 1, h, elapsed =>
    sortInner n (nloop - 1) (Nat.sub_lt (Nat.zero_lt_of_lt h) Nat.one_pos)
      (sortOuter n (Nat.le_of_lt h) elapsed)

def mbSort (elapsed : Vector α nloop) : Vector α nloop :=
  sortOuter nloop le_rfl elapsed

/-! ### Extremes -/

structure Extremes (α : Type*) where
  min : α
  max : α
  deriving DecidableEq

/-- The two comparisons of a pass, with the values that a sample is compared with and those that
it replaces. -/
def extremeStep (bound s : Extremes α) (x : α) : Extremes α :=
  ⟨if x < bound.min then x else s.min, if x > bound.max then x else s.max⟩

/-- `min` and `max`. -/
def allSamples (elapsed : Vector α nloop) (h : 0 < nloop) : Extremes α :=
  elapsed.toList.foldl (fun s x => extremeStep s s x) ⟨elapsed[0], elapsed[0]⟩

/-- `min9` and `max9`. This pass compares with the `min` and `max` of all samples. -/
def percentileSamples (all : Extremes α) (elapsed : Vector α nloop) (h : 0 < nloop)
    (nloop9 : Nat) : Extremes α :=
  (elapsed.toList.take nloop9).foldl (fun s x => extremeStep all s x) ⟨elapsed[0], elapsed[0]⟩

/-- What is printed of the samples. -/
structure MbReport (α : Type*) where
  all : Extremes α
  percentile : Extremes α

def mbReport (elapsed : Vector α nloop) (h : 0 < nloop) (nloop9 : Nat) : MbReport α :=
  let elapsed := mbSort elapsed
  let all := allSamples elapsed h
  ⟨all, percentileSamples all elapsed h nloop9⟩

end Samples

end Libpop.Mb

import Libpop.AccessTrace
import Libpop.Generator

/-!
# Arrays and descriptors of a generator thread

`thread_body` of `apps/generator.c` seen through its local arrays. `bufs` and `pkts` are set up
before the loop and `iod` holds the descriptors of the read commands. The first part lists the
elements that the code reads and writes, in the order of its loops; the second follows the
descriptors that `unvme_aread` returns and `unvme_apoll` is given.
-/

namespace Libpop.Generator
open AccessTrace Bytes

def maxBatchSize : Nat := 32

def maxNvbatchSize : Nat := 64

/-- An element of one of the arrays. -/
inductive Cell
  | bufs (n : Nat)
  | pkts (n m : Nat)
  | iod (n : Nat)
  deriving DecidableEq

/-- The index is inside the array, by its declaration in `thread_body`. -/
def Cell.InArray : Cell → Prop
  | .bufs n => n < maxNvbatchSize
  | .pkts n m => n < maxNvbatchSize ∧ m < maxBatchSize
  | .iod n => n < maxNvbatchSize

/-- The arrays that are set up before the loop. -/
def Cell.SetUp : Cell → Prop
  | .bufs _ => True
  | .pkts _ _ => True
  | .iod _ => False

/-- The inner set-up loop of buffer `n` after `m` iterations. -/
def setupPkts (n : Nat) : Nat → List (Access Cell)
  | 0 => []
  | m + 1 => setupPkts n m ++ [.read (.bufs n), .write (.pkts n m)]

/-- The set-up loop after `n` iterations. -/
def setupBufs (p : GenParam) : Nat → List (Access Cell)
  | 0 => []
  | n + 1 => setupBufs p n ++ ([.write (.bufs n), .read (.bufs n)] ++ setupPkts n p.batch)

/-- The set-up, and the line that is printed before the loop. -/
def setup (p : GenParam) : List (Access Cell) :=
  setupBufs p (p.nvbatch + 1) ++ [.read (.bufs 0)]

/-- The submit loop after `vb` iterations. -/
def submitTrace : Nat → List (Access Cell)
  | 0 => []
  | vb + 1 => submitTrace vb ++ [.read (.bufs vb), .write (.iod vb)]

/-- The fill loop after `vb` iterations. -/
def fillTrace (p : GenParam) (poll : Nat → Int) (nvbatch rest : Nat) : Nat → List (Access Cell)
  | 0 => []
  | vb + 1 => fillTrace p poll nvbatch rest vb ++ .read (.iod vb) ::
      (if poll vb ≠ 0 then [] else (List.range (p.batchOf nvbatch rest vb)).map fun b => .read (.pkts vb b))

/-- The loop of `hex_dump` after `n` iterations, with the `batch` that the fill loop has left. -/
def dumpTrace (batch : Nat) : Nat → List (Access Cell)
  | 0 => []
  | n + 1 => dumpTrace batch n ++ (List.range batch).map fun m => .read (.pkts n m)

/-- One iteration of the main loop. -/
def iterationTrace (p : GenParam) (hexDump : Bool) (th : GenThread)
    (env : GenEnv) : List (Access Cell) :=
  let space := nmRingSpace th.ring
  if space = 0 then []
  else
    let (nvbatch, rest) := p.plan space
    (if p.fakePacket then [] else submitTrace nvbatch) ++ (fillTrace p env.poll nvbatch rest nvbatch ++
      if hexDump then dumpTrace (p.batchOf nvbatch rest (nvbatch - 1)) nvbatch else [])

/-- A thread and everything it has accessed. -/
structure TraceState where
  thread : GenThread
  trace : List (Access Cell)

def traceInit (p : GenParam) (n : Nat) (ring : NetmapRing) (bufs : Nat → Mem) : TraceState :=
  ⟨spawn p n ring bufs, setup p⟩

def traceStep (p : GenParam) (g : GenBuffers) (disk : Mem) (hexDump : Bool) (s : TraceState)
    (env : GenEnv) : Option TraceState :=
  match threadBody p g disk s.thread env with
  | none => none
  | some t => some ⟨t, s.trace ++ iterationTrace p hexDump s.thread env⟩

/-! ### Descriptors -/

/-- `iod` and what has become of the descriptors, which are numbered as they are issued: those
that were polled, the reads that have not completed with their buffers, the elements that were
polled out of order and the buffers that were read into too early. -/
structure Descriptors where
  iod : Nat → Option Nat
  issued : Nat
  polled : List Nat
  uncompleted : List (Nat × Nat)
  badPolls : List Nat
  badReads : List Nat

/-- `iod[vb] = unvme_aread(.., bufs[vb], ..)` in an iteration whose first descriptor is `first`. -/
def aread (first vb : Nat) (d : Descriptors) : Descriptors :=
  { d with
    iod := Function.update d.iod vb (some d.issued), issued := d.issued + 1
    uncompleted := d.uncompleted ++ [(d.issued, vb)]
    badReads := if ∃ e ∈ d.uncompleted, e.1 < first ∧ e.2 = vb then d.badReads ++ [vb] else d.badReads }

/-- `unvme_apoll(iod[vb], ..)`; a poll that returns 0 has seen the read complete. -/
def apoll (first vb : Nat) (ret : Int) (d : Descriptors) : Descriptors :=
  match d.iod vb with
  | none => { d with badPolls := d.badPolls ++ [vb] }
  | some k =>
    { d with
      polled := d.polled ++ [k]
      uncompleted := if ret = 0 then d.uncompleted.filter (fun e => e.1 ≠ k) else d.uncompleted
      badPolls := if first ≤ k ∧ k ∉ d.polled then d.badPolls else d.badPolls ++ [vb] }

/-- The submit loop after `n` iterations. -/
def areads (first : Nat) (d : Descriptors) : Nat → Descriptors
  | 0 => d
  | vb + 1 => aread first vb (areads first d vb)

/-- The polls of the fill loop after `n` iterations. -/
def apolls (first : Nat) (poll : Nat → Int) (d : Descriptors) : Nat → Descriptors
  | 0 => d
  | vb + 1 => apoll first vb (poll vb) (apolls first poll d vb)

/-- The commands and polls of one iteration. -/
def exchange (p : GenParam) (th : GenThread) (env : GenEnv) (d : Descriptors) : Descriptors :=
  let space := nmRingSpace th.ring
  if space = 0 then d
  else
    let nvbatch := (p.plan space).1
    apolls d.issued env.poll (if p.fakePacket then d else areads d.issued d nvbatch) nvbatch

structure IoState where
  thread : GenThread
  io : Descriptors

/-- A thread before its first iteration; `iod` is not initialised. -/
def ioInit (p : GenParam) (n : Nat) (ring : NetmapRing) (bufs : Nat → Mem) : IoState :=
  ⟨spawn p n ring bufs, ⟨fun _ => none, 0, [], [], [], []⟩⟩

/-- An iteration, or a read that completes after its poll has timed out. -/
inductive IoOp
  | iterate (env : GenEnv)
  | complete (k : Nat)

def ioStep (p : GenParam) (g : GenBuffers) (disk : Mem) (s : IoState) : IoOp → Option IoState
  | .iterate env => match threadBody p g disk s.thread env with
    | none => none
    | some t => some ⟨t, exchange p s.thread env s.io⟩
  | .complete k =>
    some { s with io := { s.io with uncompleted := s.io.uncompleted.filter fun e => e.1 ≠ k } }

end Libpop.Generator

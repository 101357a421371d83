import Libpop.Nvgen

/-!
# The I/O threads of bench-nvme

Embedding of `bench_start` of `apps/bench-nvme.c`, one thread for each CPU, and of the LBA
ranges that `main` gives them. A thread issues a batch of commands, walking over its range,
and then polls for all of them; it looks at `caught_signal` between batches only.
-/

namespace Libpop.BenchNvme

inductive Mode
  | read
  | write
  deriving DecidableEq

inductive Split
  | equal
  | nosplit
  deriving DecidableEq

/-- The fields of `struct bench_param` that the threads depend on, as the option parser admits
them, and the block size of the namespace. The parser bounds `ncpus` by the number of online CPUs
only, and `th` has `MAX_CPU_NUM` elements: with more than 32 threads the program leaves its array,
which is not modelled. -/
structure BenchParam where
  mode : Mode
  walk : WalkMode
  split : Split
  size : Nat
  batch : Nat
  ncpus : Nat
  lbaEnd : BitVec 64
  blockshift : Nat
  size_lt : size < 2 ^ 31
  batch_le : batch ≤ 64
  ncpus_pos : 1 ≤ ncpus
  ncpus_lt : ncpus < 2 ^ 31

namespace BenchParam

def blocksize (p : BenchParam) : Nat :=
  2 ^ p.blockshift

/-- The blocks of one I/O. -/
def nblocks (p : BenchParam) : Nat :=
  if p.size % p.blocksize ≠ 0 then (p.size >>> p.blockshift) + 1 else p.size >>> p.blockshift

/-- The range of thread `n`, from `lba_start` to `lba_end`. -/
def range (p : BenchParam) (n : Nat) : BitVec 64 × BitVec 64 :=
  match p.split with
  | .equal =>
    let width := p.lbaEnd / BitVec.ofNat 64 p.ncpus
    (width * BitVec.ofNat 64 n, width * BitVec.ofNat 64 (n + 1))
  | .nosplit => (0, p.lbaEnd)

end BenchParam

/-- A call of `bench`: queue and buffer, and the blocks as they reach the driver. -/
structure Command where
  qid : Nat
  buf : Nat
  mode : Mode
  lba : BitVec 64
  nblocks : BitVec 32
  deriving DecidableEq

inductive Pc
  | loop
  | issue (b : Nat)
  | poll (b : Nat)
  | done
  deriving DecidableEq

/-- Locals of `bench_start` and the counters of its `struct bench_thread`. -/
structure BenchThread where
  pc : Pc
  lba : BitVec 64
  lbaStart : BitVec 64
  lbaEnd : BitVec 64
  count : BitVec 64
  bytes : BitVec 64
  deriving DecidableEq

inductive BenchOp
  | loop
  | issue (rand : BitVec 31)
  | poll (ret : Int)

def pollFrom (p : BenchParam) (b : Nat) : Pc :=
  if b < p.batch then .poll b else .loop

def issueFrom (p : BenchParam) (b : Nat) : Pc :=
  if b < p.batch then .issue b else pollFrom p 0

/-- A step of thread `qid`, with the command it issues. Its `next_lba` has the
body of nvgen's. -/
def benchStart (p : BenchParam) (caughtSignal : Bool) (qid : Nat) (th : BenchThread)
    (op : BenchOp) : Option (BenchThread × Option Command) :=
  match th.pc, op with
  | .loop, .loop => some ({ th with pc := if caughtSignal then .done else issueFrom p 0 }, none)
  | .issue b, .issue rand =>
    match nextLba p.walk th.lba th.lbaStart th.lbaEnd (BitVec.ofNat 64 p.nblocks) rand with
    | none => none
    | some lba => some ({ th with pc := issueFrom p (b + 1), lba := lba },
        some ⟨qid, b, p.mode, th.lba, BitVec.ofNat 32 p.nblocks⟩)
  | .poll b, .poll ret =>
    let th := { th with pc := pollFrom p (b + 1) }
    if ret = 0 then
      some ({ th with bytes := th.bytes + BitVec.ofNat 64 p.size, count := th.count + 1 }, none)
    else some (th, none)
  | _, _ => none

def spawn (p : BenchParam) (n : Nat) : BenchThread :=
  ⟨.loop, (p.range n).1, (p.range n).1, (p.range n).2, 0, 0⟩

/-- The threads of a run and the commands that all of them have issued. -/
structure BenchState where
  caughtSignal : Bool
  threads : List BenchThread
  commands : List Command

def benchInit (p : BenchParam) : BenchState :=
  ⟨false, (List.range p.ncpus).map (spawn p), []⟩

inductive BenchEvent
  | signal
  | run (qid : Nat) (op : BenchOp)

/-- The signal, or the next step of one of the threads. -/
def benchStep (p : BenchParam) (s : BenchState) : BenchEvent → Option BenchState
  | .signal => some { s with caughtSignal := true }
  | .run qid op => match s.threads[qid]? with
    | none => none
    | some th => match benchStart p s.caughtSignal qid th op with
      | none => none
      | some (th, command) => some
          { s with threads := s.threads.set qid th, commands := s.commands ++ command.toList }

end Libpop.BenchNvme

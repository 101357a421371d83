import Libpop.GeneratorSend

/-!
# The process of generator

The end of `main` of `apps/generator.c`, from the loop that opens the netmap ports to
`pop_mem_exit`, with its threads and the NIC. A port that cannot be opened leads to the label
`close` at once. Every `pthread_create` succeeds. The threads look at `caught_signal` at the top
of their loops only. To join an entry of `gen_th` without a thread is not defined; here the call
returns and the entry is recorded.
-/

namespace Libpop.Generator
open Bytes

/-- The options, and for each CPU the buffers of its thread, the ring of its port and what the
memory holds. -/
structure ProcConf where
  param : GenParam
  timeout : BitVec 32
  disk : Mem
  buffers : Nat → GenBuffers
  numSlots : Nat → Nat
  slot : Nat → Nat → NetmapSlot
  bufs : Nat → Nat → Mem

/-- `join i n` and `nmClose i n` are in the loop behind `close`, which ends at the value that `n` has
there. -/
inductive ProcPc
  | open (n : Nat)
  | spawn (n : Nat)
  | spawnCount
  | sleep
  | joinCount
  | join (i n : Nat)
  | nmClose (i n : Nat)
  | exit
  deriving DecidableEq

inductive CountState
  | notCreated
  | running
  | ended
  deriving DecidableEq

/-- The thread of CPU `n` is the `n`-th of the list. With the ports that were opened and closed, the
port that failed to open, the entries of `gen_th` whose threads were joined and those that were
joined without a thread, and whether the count thread was joined. -/
structure GenProc where
  main : ProcPc
  caughtSignal : Bool
  workers : List GenTx
  count : CountState
  opened : Nat
  failed : Option Nat
  closed : List Nat
  joined : List Nat
  strayJoins : List Nat
  countJoined : Bool

def procInit : GenProc :=
  ⟨.open 0, false, [], .notCreated, 0, none, [], [], [], false⟩

/-- The next step of `main`; `none` while it waits for a thread and in `pop_mem_exit`. `ok` says
whether a port can be opened. -/
def mainStep (conf : ProcConf) (ok : Bool) (s : GenProc) : Option GenProc :=
  match s.main with
  | .open n =>
    if n < conf.param.ncpus then
      if ok then some { s with main := .open (n + 1), opened := s.opened + 1 }
      else some { s with main := .join 0 n, caughtSignal := true, failed := some n }
    else some { s with main := .spawn 0 }
  | .spawn n =>
    if n < conf.param.ncpus then
      some { s with
        main := .spawn (n + 1)
        workers := s.workers ++
          [genTxInit conf.param n (conf.numSlots n) (conf.slot n) (conf.bufs n)] }
    else some { s with main := .spawnCount }
  | .spawnCount =>
    some { s with count := .running, main := if conf.timeout ≠ 0 then .sleep else .joinCount }
  | .sleep => some { s with caughtSignal := true, main := .joinCount }
  | .joinCount =>
    if s.count = .ended then some { s with main := .join 0 conf.param.ncpus, countJoined := true }
    else none
  | .join i n =>
    if i < n then
      match s.workers[i]? with
      -- the entry of the thread was cleared and no thread was created for it
      | none => some { s with main := .nmClose i n, strayJoins := s.strayJoins ++ [i] }
      | some w =>
        if w.thread.running = false then
          some { s with main := .nmClose i n, joined := s.joined ++ [i] }
        else none
    else some { s with main := .exit }
  | .nmClose i n => some { s with main := .join (i + 1) n, closed := s.closed ++ [i] }
  | .exit => none

/-- The next step of `count_thread`. -/
def countStep (s : GenProc) : Option GenProc :=
  if s.count = .running then some { s with count := if s.caughtSignal then .ended else .running }
  else none

/-- A step of the thread of a CPU or of the NIC on its ring; `leave` is the top of the loop with
`caught_signal` set. -/
inductive WorkerOp
  | step (op : GenTxOp)
  | leave

def workerNext (conf : ProcConf) (n : Nat) (caughtSignal : Bool) (w : GenTx) :
    WorkerOp → Option GenTx
  | .step (.iterate rand poll sync) =>
    if caughtSignal then none
    else genTxStep conf.param (conf.buffers n) conf.disk w (.iterate rand poll sync)
  | .step .transmit => genTxStep conf.param (conf.buffers n) conf.disk w .transmit
  | .leave =>
    if caughtSignal ∧ w.thread.running = true then
      some { w with thread := { w.thread with running := false } }
    else none

inductive ProcOp
  | signal
  | main (ok : Bool)
  | count
  | worker (n : Nat) (op : WorkerOp)

def procStep (conf : ProcConf) (s : GenProc) : ProcOp → Option GenProc
  | .signal => some { s with caughtSignal := true }
  | .main ok => mainStep conf ok s
  | .count => countStep s
  | .worker n op => match s.workers[n]? with
    | none => none
    | some w => match workerNext conf n s.caughtSignal w op with
      | none => none
      | some w => some { s with workers := s.workers.set n w }

end Libpop.Generator

import Libpop.NmgenSend
import Libpop.NvgenMain
import Libpop.Receive

/-!
# The process of nmgen

The end of `main` of `apps/nmgen.c`, from the creation of its threads to `pop_mem_exit`, with
the count thread, the transmit and receive loops of the workers and the NIC. Every
`pthread_create` succeeds. A worker reads `th->cancel` at the top of its loop only.
-/

namespace Libpop.NmgenMain
open Nmgen NvgenMain

/-- A worker before its setup, or in one of the loops. -/
inductive Worker
  | starting
  | sender (s : SendState)
  | receiver (s : RecvState)

def Worker.ended : Worker → Bool
  | .starting => false
  | .sender s => s.thread.pc = .done || s.thread.pc = .failed
  | .receiver s => s.pc = .done || s.pc = .failed

/-- The options, and for each CPU what the loop of its sender reads and the rings of the port. In RX
mode `ncpus` is the number of online CPUs, which is not compared with the `MAX_CPU_NUM` elements of
`ths`: what happens beyond 32 is not modelled. -/
structure MainConf where
  mode : Mode
  ncpus : Int
  timeout : Int
  send : Nat → SendConf
  numSlots : Nat → Nat
  slot : Nat → Nat → NetmapSlot
  rxring : Nat → NetmapRing

inductive MainPc
  | spawn (n : Nat)
  | spawnCount
  | sleep
  | joinCount
  | join (n : Nat)
  | exit
  deriving DecidableEq

/-- The worker of CPU `n` is the `n`-th of the list. -/
structure NmgenProc where
  main : MainPc
  count : CountPc
  workers : List Worker
  cancel : Nat → Bool
  caughtSignal : Bool

def nmgenInit : NmgenProc :=
  ⟨.spawn 0, .notCreated, [], fun _ => false, false⟩

/-- The next step of `main`; `none` while it waits for a thread and in `pop_mem_exit`. -/
def mainStep (conf : MainConf) (s : NmgenProc) : Option NmgenProc :=
  match s.main with
  | .spawn n =>
    if n < conf.ncpus then some { s with main := .spawn (n + 1), workers := s.workers ++ [.starting] }
    else some { s with main := .spawnCount }
  | .spawnCount =>
    some { s with count := .top, main := if conf.timeout ≠ 0 then .sleep else .joinCount }
  | .sleep => some { s with caughtSignal := true, main := .joinCount }
  | .joinCount => if s.count = .done then some { s with main := .join 0 } else none
  | .join n =>
    if n < conf.ncpus then
      match s.workers[n]? with
      | none => none
      | some w => if w.ended then some { s with main := .join (n + 1) } else none
    else some { s with main := .exit }
  | .exit => none

/-- The next step of `count_thread`, which looks for the signal before and after each interval. -/
def countStep (conf : MainConf) (s : NmgenProc) : Option NmgenProc :=
  match s.count with
  | .notCreated => none
  | .top => some { s with count := if s.caughtSignal then .cancel 0 else .interval }
  | .interval => some { s with count := if s.caughtSignal then .cancel 0 else .top }
  | .cancel n =>
    if n < conf.ncpus then some { s with cancel := Function.update s.cancel n true, count := .cancel (n + 1) }
    else some { s with count := .done }
  | .done => none

/-- A sender that gets no buffer returns before its loop. -/
def setup (conf : MainConf) (n : Nat) (buffer : Bool) : Worker :=
  match conf.mode with
  | .tx =>
    let s := sendInit (conf.numSlots n) (conf.slot n)
    .sender (if buffer then s else { s with thread := { s.thread with pc := .failed } })
  | .rx => .receiver (recvInit (conf.rxring n))

def SendOp.Reads (cancel : Bool) : SendOp → Prop
  | .sync _ => cancel = false
  | .leave => cancel = true
  | _ => True

def RecvOp.Reads (cancel : Bool) : RecvOp → Prop
  | .sync _ => cancel = false
  | .leave => cancel = true
  | _ => True

instance (cancel : Bool) (op : SendOp) : Decidable (SendOp.Reads cancel op) := by
  unfold SendOp.Reads
  split <;> infer_instance

instance (cancel : Bool) (op : RecvOp) : Decidable (RecvOp.Reads cancel op) := by
  unfold RecvOp.Reads
  split <;> infer_instance

inductive WorkerOp
  | setup (buffer : Bool)
  | send (op : SendOp)
  | recv (op : RecvOp)

/-- The next step of worker `n`, or of the NIC on its ring. -/
def workerNext (conf : MainConf) (n : Nat) (cancel : Bool) : Worker → WorkerOp → Option Worker
  | .starting, .setup buffer => some (setup conf n buffer)
  | .sender s, .send op =>
    if SendOp.Reads cancel op then (sendStep (conf.send n) s op).map .sender else none
  | .receiver s, .recv op => if RecvOp.Reads cancel op then (recvStep s op).map .receiver else none
  | _, _ => none

inductive NmgenOp
  | signal
  | main
  | count
  | worker (n : Nat) (op : WorkerOp)

def nmgenStep (conf : MainConf) (s : NmgenProc) : NmgenOp → Option NmgenProc
  | .signal => some { s with caughtSignal := true }
  | .main => mainStep conf s
  | .count => countStep conf s
  | .worker n op => match s.workers[n]? with
    | none => none
    | some w => match workerNext conf n (s.cancel n) w op with
      | none => none
      | some w => some { s with workers := s.workers.set n w }

end Libpop.NmgenMain

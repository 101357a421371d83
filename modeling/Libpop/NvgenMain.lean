import Mathlib.Logic.Function.Basic
import Libpop.Nvgen

/-!
# The threads of nvgen

Embedding of the end of `main` of `apps/nvgen.c`, from the creation of its threads to
`pop_mem_exit`, with the count thread and what the worker threads do about their
cancellation. Every `pthread_create` succeeds, and a thread reads and writes the flags in its
program order.
-/

namespace Libpop.NvgenMain

inductive Mode
  | tx
  | rx
  deriving DecidableEq

/-- The options that decide how the threads are created and stopped. In RX mode `ncpus` is the
number of online CPUs, which is not compared with the `MAX_CPU_NUM` elements of `ths`: what happens
beyond 32 is not modelled. -/
structure MainParam where
  mode : Mode
  ncpus : Int
  walk : WalkMode
  timeout : Int

/-! ### Worker threads -/

/-- The function that a worker thread runs. -/
inductive Body
  | senderNetmap
  | senderUnvme
  | receiver
  deriving DecidableEq

inductive WorkerPc
  | top
  | pass
  | drain
  | done
  deriving DecidableEq

structure Worker where
  body : Body
  cpu : Nat
  pc : WorkerPc
  deriving DecidableEq

/-- The next step of a worker that reads `th->cancel` as `cancel`. The rest of the world decides
whether the `ioctl` of a pass fails, whether a pass finds room in the ring, and whether the NIC
still has packets to send; `none` when the thread has ended. -/
def workerNext (gen : MainParam) (cancel world : Bool) (body : Body) : WorkerPc → Option WorkerPc
  | .top =>
    if cancel then some (if body = .senderNetmap then .drain else .done) else some .pass
  | .pass => match body with
    | .senderUnvme =>
      -- a walk mode that the loop does not know ends it
      some (if world ∧ gen.walk = .same then .done else .top)
    | _ => some (if world then .done else .top)
  | .drain => some (if world then .drain else .done)
  | .done => none

/-! ### The process -/

inductive CountPc
  | notCreated
  | top
  | interval
  | cancel (n : Nat)
  | done
  deriving DecidableEq

inductive MainPc
  | spawn (n : Nat)
  | spawnUnvme (n : Nat)
  | spawnCount
  | sleep
  | joinCount
  | join (n : Nat)
  | exit
  deriving DecidableEq

/-- Workers are named by their position in the order of creation. `tid` and `cancel` are the fields
of `ths`, one for each CPU. -/
structure Threads where
  main : MainPc
  count : CountPc
  workers : List Worker
  tid : Nat → Option Nat
  cancel : Nat → Bool
  caughtSignal : Bool

def threadsInit : Threads :=
  ⟨.spawn 0, .notCreated, [], fun _ => none, fun _ => false, false⟩

namespace Threads

/-- `pthread_create(&ths[n].tid, NULL, body, &ths[n])`. -/
def create (s : Threads) (n : Nat) (body : Body) (next : MainPc) : Threads :=
  { s with
    main := next
    workers := s.workers ++ [⟨body, n, .top⟩]
    tid := Function.update s.tid n (some s.workers.length) }

/-- `pthread_join(ths[n].tid, NULL)` returns. -/
def joins (s : Threads) (n : Nat) : Bool :=
  ((s.tid n).bind fun i => s.workers[i]?).any fun w => w.pc = .done

end Threads

/-- The next step of `main`; `none` while it waits for a thread and in `pop_mem_exit`. -/
def mainStep (gen : MainParam) (s : Threads) : Option Threads :=
  match s.main with
  | .spawn n =>
    if n < gen.ncpus then
      match gen.mode with
      | .tx => some (s.create n .senderNetmap (.spawnUnvme n))
      | .rx => some (s.create n .receiver (.spawn (n + 1)))
    else some { s with main := .spawnCount }
  | .spawnUnvme n => some (s.create n .senderUnvme (.spawn (n + 1)))
  | .spawnCount =>
    some { s with count := .top, main := if gen.timeout ≠ 0 then .sleep else .joinCount }
  | .sleep => some { s with caughtSignal := true, main := .joinCount }
  | .joinCount => if s.count = .done then some { s with main := .join 0 } else none
  | .join n =>
    if n < gen.ncpus then
      if s.joins n then some { s with main := .join (n + 1) } else none
    else some { s with main := .exit }
  | .exit => none

/-- The next step of `count_thread`, which looks for the signal before and after each interval. -/
def countStep (gen : MainParam) (s : Threads) : Option Threads :=
  match s.count with
  | .notCreated => none
  | .top => some { s with count := if s.caughtSignal then .cancel 0 else .interval }
  | .interval => some { s with count := if s.caughtSignal then .cancel 0 else .top }
  | .cancel n =>
    if n < gen.ncpus then
      some { s with cancel := Function.update s.cancel n true, count := .cancel (n + 1) }
    else some { s with count := .done }
  | .done => none

def workerStep (gen : MainParam) (s : Threads) (i : Nat) (world : Bool) : Option Threads :=
  match s.workers[i]? with
  | none => none
  | some w =>
    match workerNext gen (s.cancel w.cpu) world w.body w.pc with
    | none => none
    | some pc => some { s with workers := s.workers.set i { w with pc := pc } }

inductive Act
  | main
  | count
  | worker (i : Nat) (world : Bool)
  | signal
  deriving DecidableEq

def threadsStep (gen : MainParam) (s : Threads) : Act → Option Threads
  | .main => mainStep gen s
  | .count => countStep gen s
  | .worker i world => workerStep gen s i world
  | .signal => some { s with caughtSignal := true }

end Libpop.NvgenMain

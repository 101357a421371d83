import Libpop.Bench
import Libpop.Buf

/-!
# The process of bench-nvme

`main` of `apps/bench-nvme.c` from the creation of its threads on, with the buffers that
`bench_start` allocates before its loop, the report thread and the NVMe device. Every
`pthread_create` succeeds, a `pop_buf_alloc` is one step, and the report thread takes a step
for each thread whose counters it reads.
-/

namespace Libpop.BenchNvme

/-- A thread in `bench_start` and the buffers it has; `ready` says that it is behind the loop that
allocates them. -/
structure Worker where
  bufs : List Pbuf
  ready : Bool
  th : BenchThread

/-- A command that the device works on, with the iod it was issued for and the memory it uses. -/
structure Transfer where
  qid : Nat
  b : Nat
  addr : BitVec 64
  len : Nat
  deriving DecidableEq

inductive MainPc
  | spawn (n : Nat)
  | spawnReport
  | sleep
  | join (n : Nat)
  | joinReport
  | close
  | exit
  deriving DecidableEq

/-- Where `report_interval` stands, with the sums of `print_interval_result`. -/
inductive ReportPc
  | notCreated
  | top
  | start (n : Nat) (count bytes : BitVec 64)
  | stop (n : Nat) (countStart bytesStart count bytes : BitVec 64)
  | done
  deriving DecidableEq

/-- The differences that an `[INTERIM]` line is computed from. -/
structure Interim where
  count : BitVec 64
  bytes : BitVec 64
  deriving DecidableEq

/-- The process; `exited` after the `exit(0)` of a thread that got no buffer. -/
structure BenchProc where
  mem : PopMem
  caughtSignal : Bool
  exited : Bool
  main : MainPc
  report : ReportPc
  workers : List Worker
  inFlight : List Transfer
  commands : List Command
  printed : List Interim

def procInit (mem : PopMem) : BenchProc :=
  ⟨mem, false, false, .spawn 0, .notCreated, [], [], [], []⟩

/-- The bytes of one I/O, as `pop_buf_alloc` and `pop_buf_put` get them. -/
def BenchParam.iosize (p : BenchParam) : BitVec 64 :=
  BitVec.ofNat 64 p.nblocks <<< p.blockshift

/-- The next step of `main`; `none` while it waits for a thread and at its end. -/
def mainStep (p : BenchParam) (time : Int) (s : BenchProc) : Option BenchProc :=
  match s.main with
  | .spawn n =>
    if n < p.ncpus then
      some { s with main := .spawn (n + 1), workers := s.workers ++ [⟨[], false, spawn p n⟩] }
    else some { s with main := .spawnReport }
  | .spawnReport => some { s with report := .top, main := if time ≠ 0 then .sleep else .join 0 }
  | .sleep => some { s with caughtSignal := true, main := .join 0 }
  | .join n =>
    if n < p.ncpus then
      match s.workers[n]? with
      | none => none
      | some w => if w.th.pc = .done then some { s with main := .join (n + 1) } else none
    else some { s with main := .joinReport }
  | .joinReport => if s.report = .done then some { s with main := .close } else none
  | .close => some { s with main := .exit }
  | .exit => none

/-- The next step of `report_interval`. -/
def reportStep (p : BenchParam) (s : BenchProc) : Option BenchProc :=
  match s.report with
  | .notCreated => none
  | .top => some { s with report := if s.caughtSignal then .done else .start 0 0 0 }
  | .start n count bytes =>
    if n < p.ncpus then
      match s.workers[n]? with
      | none => none
      | some w => some { s with report := .start (n + 1) (count + w.th.count) (bytes + w.th.bytes) }
    else some { s with report := .stop 0 count bytes 0 0 }
  | .stop n countStart bytesStart count bytes =>
    if n < p.ncpus then
      match s.workers[n]? with
      | none => none
      | some w => some
          { s with report := .stop (n + 1) countStart bytesStart (count + w.th.count) (bytes + w.th.bytes) }
    else some { s with report := .top, printed := s.printed ++ [⟨count - countStart, bytes - bytesStart⟩] }
  | .done => none

/-- The next iteration of the loop that allocates, on the context at `addr`. -/
def allocStep (p : BenchParam) (addr : BitVec 64) (s : BenchProc) (qid : Nat) (malloc : Bool) :
    Option BenchProc :=
  match s.workers[qid]? with
  | none => none
  | some w =>
    if w.ready then none
    else if w.bufs.length < p.batch then
      match popBufAllocPut addr s.mem p.iosize malloc with
      | none => none
      | some (mem, .error _) => some { s with mem := mem, exited := true }
      | some (mem, .ok pbuf) => some
          { s with mem := mem, workers := s.workers.set qid { w with bufs := w.bufs ++ [pbuf] } }
    else some { s with workers := s.workers.set qid { w with ready := true } }

/-- The transfer of a command, to or from the buffer that it names. -/
def Worker.transfer (p : BenchParam) (w : Worker) (c : Command) : Option Transfer :=
  (w.bufs[c.buf]?).map fun pbuf => ⟨c.qid, c.buf, popBufData pbuf, c.nblocks.toNat * p.blocksize⟩

/-- A poll of `iod[b]` succeeds only when the device is done with the command. -/
def PollOk (s : BenchProc) (qid : Nat) (th : BenchThread) : BenchOp → Prop
  | .poll ret => ret = 0 → ∀ t ∈ s.inFlight, t.qid = qid → th.pc ≠ .poll t.b
  | _ => True

instance (s : BenchProc) (qid : Nat) (th : BenchThread) (op : BenchOp) :
    Decidable (PollOk s qid th op) := by
  unfold PollOk
  split <;> infer_instance

/-- A step of the main loop of a thread. -/
def runStep (p : BenchParam) (s : BenchProc) (qid : Nat) (op : BenchOp) : Option BenchProc :=
  match s.workers[qid]? with
  | none => none
  | some w =>
    if w.ready ∧ PollOk s qid w.th op then
      match benchStart p s.caughtSignal qid w.th op with
      | none => none
      | some (th, command) => some
          { s with
            workers := s.workers.set qid { w with th := th }
            inFlight := s.inFlight ++ (command.bind (w.transfer p)).toList
            commands := s.commands ++ command.toList }
    else none

inductive ProcOp
  | signal
  | main
  | report
  | alloc (qid : Nat) (malloc : Bool)
  | run (qid : Nat) (op : BenchOp)
  | complete (i : Nat)

/-- The next step of a thread, of the device or of the user. -/
def procStep (p : BenchParam) (addr : BitVec 64) (time : Int) (s : BenchProc)
    (op : ProcOp) : Option BenchProc :=
  if s.exited then none
  else match op with
    | .signal => some { s with caughtSignal := true }
    | .main => mainStep p time s
    | .report => reportStep p s
    | .alloc qid malloc => allocStep p addr s qid malloc
    | .run qid op => runStep p s qid op
    | .complete i =>
      if i < s.inFlight.length then some { s with inFlight := s.inFlight.eraseIdx i } else none

end Libpop.BenchNvme

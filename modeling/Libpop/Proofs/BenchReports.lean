import Libpop.Proofs.BenchTransfers
import Libpop.Sampling

/-!
# The figures of bench-nvme

The report thread reads the counters of running threads, one after the other. No command is in
two of its `[INTERIM]` lines, and in the end each thread has counted every command that it has
issued.
-/

namespace Libpop.Proofs
open BenchNvme Execution Finset Sampling

/-! ### Interim lines -/

/-- A counter of the threads, with what the report thread and its lines have of it and the amount
that a command adds. -/
structure Meter where
  value : BenchThread → BitVec 64
  sums : ReportPc → Sums 64
  shown : Interim → BitVec 64
  unit : Nat

def countSums : ReportPc → Sums 64
  | .start n count _ => .first n count
  | .stop n countStart _ count _ => .second n countStart count
  | _ => .idle

def bytesSums : ReportPc → Sums 64
  | .start n _ bytes => .first n bytes
  | .stop n _ bytesStart _ bytes => .second n bytesStart bytes
  | _ => .idle

def countMeter : Meter :=
  ⟨BenchThread.count, countSums, Interim.count, 1⟩

def bytesMeter (p : BenchParam) : Meter :=
  ⟨BenchThread.bytes, bytesSums, Interim.bytes, p.size⟩

namespace Meter

/-- The counter of thread `m`, 0 as long as it does not exist. -/
def read (μ : Meter) (workers : List Worker) (m : Nat) : BitVec 64 :=
  ((workers[m]?).map fun w => μ.value w.th).getD 0

lemma read_eq {μ : Meter} {workers : List Worker} {n : Nat} {w : Worker}
    (hw : workers[n]? = some w) : μ.read workers n = μ.value w.th := by
  unfold read
  rw [hw]
  rfl

/-- The sum of all lines. -/
def printed (μ : Meter) (lines : List Interim) : Nat :=
  (lines.map fun line => (μ.shown line).toNat).sum

/-- The threads and the report thread treat the counter as they should. -/
structure Sound (p : BenchParam) (μ : Meter) : Prop where
  spawn : ∀ n, μ.value (spawn p n) = 0
  thread : ∀ qid th op th' command, ThreadMove p qid th op th' command →
    μ.value th' = μ.value th ∨ μ.value th' = μ.value th + BitVec.ofNat 64 μ.unit
  idle : μ.sums .top = .idle
  report : ∀ s t, reportStep p s = some t → ∃ line : Option Interim,
    t = { s with report := t.report, printed := s.printed ++ line.toList } ∧
      SumsMove p.ncpus (μ.read s.workers) (μ.sums s.report) (μ.sums t.report) (line.map μ.shown)

end Meter

/-- A round of `print_interval_result` is the same for both counters. -/
lemma reportStep_sums {p : BenchParam} {μ : Meter} (acc : BitVec 64 → BitVec 64 → BitVec 64)
    (htop : μ.sums .top = .idle) (hdone : μ.sums .done = .idle)
    (hstart : ∀ n count bytes, μ.sums (.start n count bytes) = .first n (acc count bytes))
    (hstop : ∀ n countStart bytesStart count bytes, μ.sums (.stop n countStart bytesStart count bytes) =
      .second n (acc countStart bytesStart) (acc count bytes))
    (hzero : acc 0 0 = 0)
    (hacc : ∀ count bytes th, acc (count + th.count) (bytes + th.bytes) = acc count bytes + μ.value th)
    (hshown : ∀ count bytes countStart bytesStart,
      μ.shown ⟨count - countStart, bytes - bytesStart⟩ =
        acc count bytes - acc countStart bytesStart)
    {s t : BenchProc} (h : reportStep p s = some t) :
    ∃ line : Option Interim, t = { s with report := t.report, printed := s.printed ++ line.toList } ∧
      SumsMove p.ncpus (μ.read s.workers) (μ.sums s.report) (μ.sums t.report) (line.map μ.shown) := by
  unfold reportStep at h
  split at h
  · cases h
  · rename_i hpc
    cases h
    refine ⟨none, by simp, ?_⟩
    rw [hpc, htop]
    split
    · rw [hdone]
      exact .rest
    · rw [hstart, hzero]
      exact .start
  · rename_i n count bytes hpc
    rw [hpc, hstart]
    split at h
    · rename_i hn
      split at h
      · cases h
      · rename_i w hw
        cases h
        refine ⟨none, by simp, ?_⟩
        rw [hstart, hacc, ← Meter.read_eq hw]
        exact .read n _ hn
    · rename_i hn
      cases h
      refine ⟨none, by simp, ?_⟩
      rw [hstop, hzero]
      exact .turn n _ hn
  · rename_i n countStart bytesStart count bytes hpc
    rw [hpc, hstop]
    split at h
    · rename_i hn
      split at h
      · cases h
      · rename_i w hw
        cases h
        refine ⟨none, by simp, ?_⟩
        rw [hstop, hacc, ← Meter.read_eq hw]
        exact .again n _ _ hn
    · rename_i hn
      cases h
      refine ⟨some ⟨count - countStart, bytes - bytesStart⟩, rfl, ?_⟩
      rw [htop, Option.map_some, hshown]
      exact .report n _ _ hn
  · cases h

lemma countMeter_sound (p : BenchParam) : countMeter.Sound p where
  spawn _ := rfl
  thread qid th op th' command hmove := by
    cases hmove with
    | polled b hpc => exact .inr rfl
    | looped | issued | timedOut => exact .inl rfl
  idle := rfl
  report s t h := reportStep_sums (fun count _ => count) rfl rfl (fun _ _ _ => rfl) (fun _ _ _ _ _ => rfl) rfl
    (fun _ _ _ => rfl) (fun _ _ _ _ => rfl) h

lemma bytesMeter_sound (p : BenchParam) : (bytesMeter p).Sound p where
  spawn _ := rfl
  thread qid th op th' command hmove := by
    cases hmove with
    | polled b hpc => exact .inr rfl
    | looped | issued | timedOut => exact .inl rfl
  idle := rfl
  report s t h := reportStep_sums (fun _ bytes => bytes) rfl rfl (fun _ _ _ => rfl) (fun _ _ _ _ _ => rfl) rfl
    (fun _ _ _ => rfl) (fun _ _ _ _ => rfl) h

/-- After `k` steps nothing was printed twice, and no counter has gone round. -/
structure MeterInv (p : BenchParam) (μ : Meter) (k : Nat) (s : BenchProc) : Prop where
  sampled : Sampled p.ncpus (fun m => (μ.read s.workers m).toNat) (μ.printed s.printed) (μ.sums s.report)
  each : ∀ m, (μ.read s.workers m).toNat ≤ μ.unit * k
  total : ∑ m ∈ range p.ncpus, (μ.read s.workers m).toNat ≤ μ.unit * k

section Meters

variable {p : BenchParam} {μ : Meter} {k : Nat} {s t : BenchProc} {workers : List Worker}
  {qid : Nat} {w : Worker}

lemma Meter.read_set_ne {w' : Worker} {m : Nat} (hm : m ≠ qid) :
    μ.read (workers.set qid w') m = μ.read workers m := by
  unfold Meter.read
  rw [List.getElem?_set_ne fun he => hm he.symm]

lemma Meter.read_set_self {w' : Worker} (hw : workers[qid]? = some w) :
    μ.read (workers.set qid w') qid = μ.value w'.th :=
  Meter.read_eq (Table.getElem?_set_self_of_some hw w')

/-- A thread that does not touch the counter. -/
lemma Meter.read_set_same {w' : Worker} (hw : workers[qid]? = some w)
    (hval : μ.value w'.th = μ.value w.th) : μ.read (workers.set qid w') = μ.read workers := by
  funext m
  by_cases hm : m = qid
  · rw [hm, Meter.read_set_self hw, Meter.read_eq hw, hval]
  · exact Meter.read_set_ne hm

lemma Meter.read_spawn (hμ : μ.Sound p) (workers : List Worker) (n : Nat) :
    μ.read (workers ++ [⟨[], false, BenchNvme.spawn p n⟩]) = μ.read workers := by
  funext m
  unfold Meter.read
  rcases lt_trichotomy m workers.length with hm | hm | hm
  · rw [List.getElem?_append_left hm]
  · rw [hm, List.getElem?_concat_length, List.getElem?_eq_none le_rfl, Option.map_some,
      Option.map_none]
    exact hμ.spawn n
  · rw [List.getElem?_eq_none hm.le, List.getElem?_eq_none]
    rw [List.length_append, List.length_singleton]
    exact hm

lemma Meter.printed_append (lines : List Interim) (line : Option Interim) :
    μ.printed (lines ++ line.toList) =
      μ.printed lines + ((line.map μ.shown).map BitVec.toNat).getD 0 := by
  unfold Meter.printed
  cases line with
  | none => simp
  | some line => simp

lemma MeterInv.succ (h : MeterInv p μ k s) (hread : μ.read t.workers = μ.read s.workers)
    (hsums : μ.sums t.report = μ.sums s.report) (hprinted : t.printed = s.printed) :
    MeterInv p μ (k + 1) t := by
  have hle : μ.unit * k ≤ μ.unit * (k + 1) := Nat.mul_le_mul_left _ (Nat.le_succ k)
  refine ⟨?_, ?_, ?_⟩
  · rw [hread, hsums, hprinted]
    exact h.sampled
  · rw [hread]
    exact fun m => (h.each m).trans hle
  · rw [hread]
    exact h.total.trans hle

/-- A thread counts a command. -/
lemma MeterInv.counted (h : MeterInv p μ k s) (hfit : μ.unit * (k + 1) < 2 ^ 64)
    (hw : s.workers[qid]? = some w) {w' : Worker}
    (hval : μ.value w'.th = μ.value w.th + BitVec.ofNat 64 μ.unit)
    (hworkers : t.workers = s.workers.set qid w') (hreport : t.report = s.report)
    (hprinted : t.printed = s.printed) : MeterInv p μ (k + 1) t := by
  rw [Nat.mul_succ] at hfit
  have heach := h.each qid
  rw [Meter.read_eq hw] at heach
  have hself : (μ.read t.workers qid).toNat = (μ.read s.workers qid).toNat + μ.unit := by
    rw [hworkers, Meter.read_set_self hw, Meter.read_eq hw, hval, BitVec.toNat_add,
      BitVec.toNat_ofNat, Nat.mod_eq_of_lt (a := μ.unit) (by omega), Nat.mod_eq_of_lt (by omega)]
  have hothers (m : Nat) (hm : m ≠ qid) :
      (μ.read t.workers m).toNat = (μ.read s.workers m).toNat := by
    rw [hworkers, Meter.read_set_ne hm]
  refine ⟨?_, ?_, ?_⟩
  · rw [hreport, hprinted]
    apply h.sampled.grow
    intro m
    by_cases hm : m = qid
    · rw [hm, hself]
      exact Nat.le_add_right _ _
    · exact (hothers m hm).ge
  · intro m
    rw [Nat.mul_succ]
    by_cases hm : m = qid
    · rw [hm, hself]
      exact Nat.add_le_add_right (h.each qid) _
    · rw [hothers m hm]
      exact (h.each m).trans (Nat.le_add_right _ _)
  · rw [Nat.mul_succ]
    exact (sum_grown_le hself.le hothers p.ncpus).trans (Nat.add_le_add_right h.total _)

/-- The report thread goes on. -/
lemma MeterInv.reported (h : MeterInv p μ k s) (hμ : μ.Sound p) (hfit : μ.unit * (k + 1) < 2 ^ 64)
    (hstep : reportStep p s = some t) : MeterInv p μ (k + 1) t := by
  obtain ⟨line, ht, hmove⟩ := hμ.report s t hstep
  have hle : μ.unit * k ≤ μ.unit * (k + 1) := Nat.mul_le_mul_left _ (Nat.le_succ k)
  have hworkers : t.workers = s.workers := by rw [ht]
  have hprinted : t.printed = s.printed ++ line.toList := by rw [ht]
  refine ⟨?_, ?_, ?_⟩
  · rw [hworkers, hprinted, Meter.printed_append]
    exact h.sampled.move hmove (fun _ _ => rfl) (h.total.trans_lt (hle.trans_lt hfit))
  · rw [hworkers]
    exact fun m => (h.each m).trans hle
  · rw [hworkers]
    exact h.total.trans hle

lemma meterInv_main (h : MeterInv p μ k s) (hμ : μ.Sound p) (hmove : MainMove p s t) :
    MeterInv p μ (k + 1) t := by
  cases hmove with
  | spawnedReport next hmain hnext =>
    refine ⟨?_, (h.succ (t := s) rfl rfl rfl).each, (h.succ (t := s) rfl rfl rfl).total⟩
    rw [hμ.idle]
    exact h.sampled.idle
  | spawnedAll | slept | joined | joinedAll | joinedReport | closed => exact h.succ rfl rfl rfl

lemma meterInv_step {addr : BitVec 64} {time : Int} (hμ : μ.Sound p) {op : ProcOp}
    (hfit : μ.unit * (k + 1) < 2 ^ 64) (h : MeterInv p μ k s)
    (hstep : procStep p addr time s op = some t) : MeterInv p μ (k + 1) t := by
  have hmove := procStep_move hstep
  cases hmove with
  | signalled | noBuffer | completed => exact h.succ rfl rfl rfl
  | spawned n hmain hn => exact h.succ (Meter.read_spawn hμ s.workers n) rfl rfl
  | main t hmain => exact meterInv_main h hμ hmain
  | reported pc printed hcreated hlive hpc =>
    unfold procStep at hstep
    split at hstep
    · cases hstep
    · exact h.reported hμ hfit hstep
  | allocated qid malloc w mem pbuf hw hready hlt halloc =>
    refine h.succ ?_ rfl rfl
    exact Meter.read_set_same hw rfl
  | ready qid malloc w hw hready hge =>
    refine h.succ ?_ rfl rfl
    exact Meter.read_set_same hw rfl
  | ran qid op w th command hw hready hpoll hthread =>
    rcases hμ.thread qid w.th op th command hthread with hval | hval
    · refine h.succ ?_ rfl rfl
      exact Meter.read_set_same hw hval
    · refine h.counted hfit hw ?_ rfl rfl rfl
      exact hval

lemma meterInv_procInit (mem : PopMem) (hidle : μ.sums .notCreated = .idle) :
    MeterInv p μ 0 (procInit mem) := by
  have hread (m : Nat) : μ.read (procInit mem).workers m = 0 := rfl
  refine ⟨?_, fun m => Nat.zero_le _, ?_⟩
  · change Sampled _ _ _ (μ.sums .notCreated)
    rw [hidle]
    exact ⟨fun _ => 0, fun _ => Nat.zero_le _, Nat.zero_le _, trivial⟩
  · simp [hread]

/-- What the report thread can see of the threads. -/
lemma Meter.sum_read_le (workers : List Worker) (N : Nat) :
    ∑ m ∈ range N, (μ.read workers m).toNat ≤ (workers.map fun w => (μ.value w.th).toNat).sum := by
  induction workers generalizing N with
  | nil => simp [Meter.read]
  | cons w workers ih =>
    cases N with
    | zero => simp
    | succ N =>
      have hrest := ih N
      rw [sum_range_succ', List.map_cons, List.sum_cons, Nat.add_comm]
      exact Nat.add_le_add_left hrest _

lemma meterInv_run {addr : BitVec 64} {time : Int} {mem : PopMem} {ops : List ProcOp}
    (hμ : μ.Sound p) (hidle : μ.sums .notCreated = .idle)
    (hrun : exec (procStep p addr time) (procInit mem) ops = some s)
    (hfit : μ.unit * ops.length < 2 ^ 64) :
    μ.printed s.printed ≤ (s.workers.map fun w => (μ.value w.th).toNat).sum := by
  have hstep (k : Nat) (s : BenchProc) (op : ProcOp) (t : BenchProc) (hk : k < ops.length)
      (h : MeterInv p μ k s) (hop : procStep p addr time s op = some t) : MeterInv p μ (k + 1) t :=
    meterInv_step hμ ((Nat.mul_le_mul_left _ hk).trans_lt hfit) h hop
  have hinv := exec_indexed hstep (meterInv_procInit mem hidle) hrun (Nat.zero_add _).le
  exact hinv.sampled.total.trans (Meter.sum_read_le s.workers p.ncpus)

end Meters

/-! ### Final figures -/

/-- The commands of a pass that a thread has issued and not counted yet. -/
def pending (p : BenchParam) : Pc → Nat
  | .issue b => b
  | .poll b => p.batch - b
  | _ => 0

def commandCount (qid : Nat) (commands : List Command) : Nat :=
  commands.countP fun c => c.qid = qid

/-- A thread is inside its pass and has counted what it has polled. -/
structure CountsOk (p : BenchParam) (th : BenchThread) (issued : Nat) : Prop where
  issue_lt : ∀ b, th.pc = .issue b → b < p.batch
  poll_lt : ∀ b, th.pc = .poll b → b < p.batch
  counted : th.count + BitVec.ofNat 64 (pending p th.pc) = BitVec.ofNat 64 issued
  bytes : th.bytes = BitVec.ofNat 64 p.size * th.count

structure FiguresInv (p : BenchParam) (workers : List Worker) (commands : List Command) : Prop where
  threads : ∀ n w, workers[n]? = some w → CountsOk p w.th (commandCount n commands)
  known : ∀ c ∈ commands, c.qid < workers.length

section Counts

variable {p : BenchParam} {workers : List Worker} {commands : List Command}
  {qid n issued : Nat} {w : Worker} {th th' : BenchThread} {op : BenchOp} {command : Option Command}

lemma pollFrom_lt {b b' : Nat} (h : pollFrom p b = .poll b') : b' < p.batch := by
  unfold pollFrom at h
  split at h
  · cases h
    assumption
  · cases h

lemma issueFrom_poll_lt {b b' : Nat} (h : issueFrom p b = .poll b') : b' < p.batch := by
  unfold issueFrom at h
  split at h
  · cases h
  · exact pollFrom_lt h

lemma pending_pollFrom (p : BenchParam) (b : Nat) : pending p (pollFrom p b) = p.batch - b := by
  unfold pollFrom
  split
  · rfl
  · exact (Nat.sub_eq_zero_of_le (by omega)).symm

lemma pending_issueFrom {b : Nat} (hb : b ≤ p.batch) : pending p (issueFrom p b) = b := by
  unfold issueFrom
  split
  · rfl
  · rw [pending_pollFrom]
    omega

lemma countsOk_spawn (p : BenchParam) (n : Nat) : CountsOk p (spawn p n) 0 where
  issue_lt _ := nofun
  poll_lt _ := nofun
  counted := rfl
  bytes := by simp [spawn]

/-- A step of a thread whose poll does not time out. -/
lemma CountsOk.move (h : CountsOk p th issued) (hmove : ThreadMove p qid th op th' command)
    (hop : ∀ ret, op = .poll ret → ret = 0) :
    CountsOk p th' (issued + commandCount qid command.toList) := by
  cases hmove with
  | looped pc hpc hnext =>
    have hcounted := h.counted
    rw [hpc] at hcounted
    rcases hnext with rfl | rfl
    · exact ⟨nofun, nofun, hcounted, h.bytes⟩
    · refine ⟨fun b hb => issueFrom_batch hb, fun b hb => issueFrom_poll_lt hb, ?_, h.bytes⟩
      dsimp only
      rw [pending_issueFrom (Nat.zero_le _)]
      exact hcounted
  | issued b rand lba hpc =>
    have hb := h.issue_lt b hpc
    have hcounted := h.counted
    rw [hpc] at hcounted
    refine ⟨fun b hb => issueFrom_batch hb, fun b hb => issueFrom_poll_lt hb, ?_, h.bytes⟩
    have hone :
        commandCount qid
          (some (⟨qid, b, p.mode, th.lba, BitVec.ofNat 32 p.nblocks⟩ : Command)).toList = 1 := by
      simp [commandCount]
    dsimp only
    rw [pending_issueFrom (b := b + 1) hb, hone, BitVec.ofNat_add, BitVec.ofNat_add,
      ← BitVec.add_assoc]
    exact congrArg (· + 1#64) hcounted
  | polled b hpc =>
    have hb := h.poll_lt b hpc
    have hcounted := h.counted
    rw [hpc] at hcounted
    refine ⟨fun b hb => absurd hb pollFrom_ne_issue, fun b hb => pollFrom_lt hb, ?_, ?_⟩
    · dsimp only
      have hleft : p.batch - b = 1 + (p.batch - (b + 1)) := by omega
      have hsplit : pending p (.poll b) = 1 + (p.batch - (b + 1)) := hleft
      rw [hsplit, BitVec.ofNat_add, ← BitVec.add_assoc] at hcounted
      rw [pending_pollFrom]
      exact hcounted
    · dsimp only
      rw [h.bytes, BitVec.mul_add]
      simp
  | timedOut b ret hpc hret => exact absurd (hop ret rfl) hret

lemma commandCount_append (qid : Nat) (commands : List Command) (more : List Command) :
    commandCount qid (commands ++ more) = commandCount qid commands + commandCount qid more :=
  List.countP_append

/-- A command is issued by the thread of its queue. -/
lemma ThreadMove.qid_eq (hmove : ThreadMove p qid th op th' command) :
    ∀ c ∈ command.toList, c.qid = qid := by
  cases hmove with
  | issued b rand lba hpc => simp
  | looped | polled | timedOut => simp

lemma FiguresInv.spawned (h : FiguresInv p workers commands) :
    FiguresInv p (workers ++ [⟨[], false, spawn p workers.length⟩]) commands := by
  refine ⟨?_, ?_⟩
  · intro n w hw
    rcases Table.getElem?_concat_cases hw with hw | ⟨rfl, rfl⟩
    · exact h.threads n w hw
    · have hnone : commandCount workers.length commands = 0 := by
        apply List.countP_eq_zero.mpr
        intro c hc
        simpa using (h.known c hc).ne
      rw [hnone]
      exact countsOk_spawn p _
  · intro c hc
    rw [List.length_append]
    exact Nat.lt_add_right _ (h.known c hc)

lemma FiguresInv.replaced (h : FiguresInv p workers commands) (hw : workers[qid]? = some w)
    (w' : Worker) (more : List Command)
    (hok : CountsOk p w'.th (commandCount qid commands + commandCount qid more))
    (hmore : ∀ c ∈ more, c.qid = qid) : FiguresInv p (workers.set qid w') (commands ++ more) := by
  refine ⟨?_, ?_⟩
  · intro n v hv
    rw [commandCount_append]
    rcases Table.getElem?_set_cases hv with ⟨rfl, rfl⟩ | ⟨hne, hold⟩
    · exact hok
    · have hnone : commandCount n more = 0 := by
        apply List.countP_eq_zero.mpr
        intro c hc
        rw [hmore c hc]
        simpa using hne.symm
      rw [hnone]
      exact h.threads n v hold
  · intro c hc
    rw [List.length_set]
    rcases List.mem_append.mp hc with hc | hc
    · exact h.known c hc
    · rw [hmore c hc]
      exact (List.getElem?_eq_some_iff.mp hw).1

end Counts

lemma figuresInv_move {p : BenchParam} {addr : BitVec 64} {s t : BenchProc} {op : ProcOp}
    (h : FiguresInv p s.workers s.commands) (hend : EndInv p s) (hop : PollsInTime s op)
    (hmove : ProcMove p addr s op t) : FiguresInv p t.workers t.commands := by
  cases hmove with
  | signalled | reported | noBuffer | completed => exact h
  | main t hmain => cases hmain <;> exact h
  | spawned n hmain hn =>
    obtain ⟨rfl, -⟩ := hend.spawning n hmain
    exact h.spawned
  | allocated qid malloc w mem pbuf hw hready hlt halloc =>
    have hset := h.replaced hw { w with bufs := w.bufs ++ [pbuf] } [] (h.threads qid w hw) nofun
    rwa [List.append_nil] at hset
  | ready qid malloc w hw hready hge =>
    have hset := h.replaced hw { w with ready := true } [] (h.threads qid w hw) nofun
    rwa [List.append_nil] at hset
  | ran qid op w th command hw hready hpoll hthread =>
    refine h.replaced hw _ _ ?_ hthread.qid_eq
    exact (h.threads qid w hw).move hthread fun ret hret => by
      subst hret
      exact hop

/-- Over a whole run, the `[INTERIM]` lines together show no more commands and bytes than the
threads have counted. -/
theorem bench_interim_sound (p : BenchParam) (addr : BitVec 64) (time : Int) (mem : PopMem)
    {ops : List ProcOp} {s : BenchProc}
    (hrun : exec (procStep p addr time) (procInit mem) ops = some s) (hcount : ops.length < 2 ^ 64)
    (hbytes : p.size * ops.length < 2 ^ 64) :
    (s.printed.map fun line => line.count.toNat).sum ≤
      (s.workers.map fun w => w.th.count.toNat).sum ∧
      (s.printed.map fun line => line.bytes.toNat).sum ≤
        (s.workers.map fun w => w.th.bytes.toNat).sum :=
  ⟨meterInv_run (countMeter_sound p) rfl hrun (by simpa [countMeter] using hcount),
    meterInv_run (bytesMeter_sound p) rfl hrun hbytes⟩

/-- A line is printed while the two threads work. The second command of the first thread is counted
between the two readings, that of the second thread behind both. -/
def interimRun : List ProcOp :=
  [.main, .main, .main, .main, .alloc 0 true, .alloc 1 true, .alloc 0 true, .alloc 1 true, .alloc 0 true,
    .alloc 1 true, .run 0 .loop, .run 1 .loop, .run 0 (.issue 0), .run 1 (.issue 0),
    .run 0 (.issue 0), .run 1 (.issue 0), .complete 3, .complete 2, .complete 1, .complete 0,
    .run 0 (.poll 0), .report, .report, .run 1 (.poll 0), .run 0 (.poll 0), .report, .report,
    .report, .report, .run 1 (.poll 0), .report]

theorem bench_interim_two :
    ∃ s, exec (procStep twoWriters 0x1000 1) (procInit benchMem) interimRun = some s ∧
      s.printed = [⟨1, 8192⟩] ∧
      ((s.printed.map fun line => line.count.toNat).sum ≤ (s.workers.map fun w => w.th.count.toNat).sum ∧
        (s.printed.map fun line => line.bytes.toNat).sum ≤
          (s.workers.map fun w => w.th.bytes.toNat).sum) := by
  have hprinted :
      (exec (procStep twoWriters 0x1000 1) (procInit benchMem) interimRun).map BenchProc.printed =
      some [⟨1, 8192⟩] := by decide +kernel
  obtain ⟨s, hs, hlines⟩ := Option.map_eq_some_iff.mp hprinted
  exact ⟨s, hs, hlines, bench_interim_sound twoWriters 0x1000 1 benchMem hs (by decide) (by decide)⟩

/-- What `print_result` is given once a thread has ended. -/
def FinalFigures (p : BenchParam) (s : BenchProc) : Prop :=
  ∀ n w, s.workers[n]? = some w → w.th.pc = .done ∨ s.main = .close ∨ s.main = .exit →
    w.th.count = BitVec.ofNat 64 (commandCount n s.commands) ∧
      w.th.bytes = BitVec.ofNat 64 p.size * w.th.count

/-- Along every run in which no poll times out, a thread that has ended has counted each of its
commands once. -/
theorem bench_figures_final (p : BenchParam) (addr : BitVec 64) (time : Int) (mem : PopMem)
    {ops : List ProcOp} (hg : Guarded (procStep p addr time) PollsInTime (procInit mem) ops) :
    Throughout (procStep p addr time) (FinalFigures p) (procInit mem) ops := by
  have hstep (s : BenchProc) (op : ProcOp) (t : BenchProc)
      (h : ProcInv p s ∧ FiguresInv p s.workers s.commands) (hop : PollsInTime s op)
      (hs : procStep p addr time s op = some t) : ProcInv p t ∧ FiguresInv p t.workers t.commands := by
    obtain ⟨hinv, hcount⟩ := h
    have hmove := procStep_move hs
    exact ⟨procInv_move hinv hmove, figuresInv_move hcount hinv.ends hop hmove⟩
  have hcount : FiguresInv p (procInit mem).workers (procInit mem).commands :=
    ⟨by simp [procInit], by simp [procInit]⟩
  refine throughout_of_guarded ?_ hstep ⟨procInv_procInit p mem, hcount⟩ hg
  rintro s ⟨hinv, hcount⟩ n w hw hended
  have hdone : w.th.pc = .done :=
    hended.elim id fun hclose => hinv.ends.all_done hclose (List.mem_of_getElem? hw)
  have hok := hcount.threads n w hw
  have hcounted := hok.counted
  rw [hdone] at hcounted
  exact ⟨(BitVec.add_zero _).symm.trans hcounted, hok.bytes⟩

theorem bench_figures_two :
    (exec (procStep twoWriters 0x1000 1) (procInit benchMem) twoWritersRun).map (fun s => s.main) =
      some .exit ∧
      Throughout (procStep twoWriters 0x1000 1) (FinalFigures twoWriters) (procInit benchMem) twoWritersRun :=
  ⟨by decide +kernel, bench_figures_final twoWriters 0x1000 1 benchMem (by decide +kernel)⟩

end Libpop.Proofs

import Libpop.Proofs.BenchTransfers

/-!
# The end of bench-nvme

Once the signal is caught every step of a thread, of `main` or of the device brings the process
nearer to its end, whoever takes it, and as long as it has not ended somebody can take one. So
the process ends under every scheduler, also when polls time out.
-/

namespace Libpop.Proofs
open BenchNvme Execution

/-! ### What is left to do -/

/-- A bound on the steps of a thread that are left, with the completions of its commands. -/
def threadWork (p : BenchParam) : Pc → Nat
  | .loop => 1
  | .issue b => 2 * (p.batch - b) + p.batch + 4
  | .poll b => p.batch - b + 2
  | .done => 0

def workerWork (p : BenchParam) (w : Worker) : Nat :=
  threadWork p w.th.pc + if w.ready then 0 else p.batch - w.bufs.length + 1

def reportWork (p : BenchParam) : ReportPc → Nat
  | .notCreated => 0
  | .top => 1
  | .start n _ _ => p.ncpus - n + p.ncpus + 3
  | .stop n _ _ _ _ => p.ncpus - n + 2
  | .done => 0

/-- The steps of `main`, with those of the threads it has yet to create. -/
def mainWork (p : BenchParam) : MainPc → Nat
  | .spawn n => (p.ncpus - n) * (p.batch + 3) + p.ncpus + 7
  | .spawnReport => p.ncpus + 6
  | .sleep => p.ncpus + 4
  | .join n => p.ncpus - n + 3
  | .joinReport => 2
  | .close => 1
  | .exit => 0

def procWork (p : BenchParam) (s : BenchProc) : Nat :=
  (if s.exited then 0 else 1) + mainWork p s.main + reportWork p s.report +
    (s.workers.map (workerWork p)).sum +
    s.inFlight.length

/-- Further signals do nothing. -/
def isWork : ProcOp → Bool
  | .signal => false
  | _ => true

section Work

variable {p : BenchParam} {addr : BitVec 64} {time : Int} {s t : BenchProc}

lemma threadWork_pollFrom (p : BenchParam) (b : Nat) :
    threadWork p (pollFrom p b) ≤ p.batch - b + 2 := by
  unfold pollFrom
  split
  · exact le_rfl
  · exact Nat.le_add_left 1 _

/-- After the signal a thread does not begin another pass. -/
lemma threadWork_step {qid : Nat} {th th' : BenchThread} {op : BenchOp} {command : Option Command}
    (h : benchStart p true qid th op = some (th', command)) :
    threadWork p th'.pc + command.toList.length < threadWork p th.pc := by
  unfold benchStart at h
  split at h
  · rename_i hpc
    cases h
    rw [hpc]
    exact Nat.zero_lt_one
  · rename_i b rand hpc
    split at h
    · cases h
    · cases h
      rw [hpc]
      change threadWork p (issueFrom p (b + 1)) + 1 < 2 * (p.batch - b) + p.batch + 4
      unfold issueFrom
      split
      · change 2 * (p.batch - (b + 1)) + p.batch + 4 + 1 < _
        omega
      · have hpoll := threadWork_pollFrom p 0
        omega
  · rename_i b ret hpc
    have hpoll := threadWork_pollFrom p (b + 1)
    have hlt : threadWork p (pollFrom p (b + 1)) + 0 < p.batch - b + 2 := by
      unfold pollFrom
      split
      · change p.batch - (b + 1) + 2 + 0 < _
        omega
      · change 1 + 0 < _
        omega
    dsimp only at h
    rw [hpc]
    split at h <;> cases h <;> exact hlt
  · cases h

lemma reportWork_step (hsig : s.caughtSignal = true) (h : reportStep p s = some t) :
    reportWork p t.report < reportWork p s.report := by
  unfold reportStep at h
  split at h
  · cases h
  · rename_i hpc
    cases h
    rw [hpc, hsig]
    exact Nat.zero_lt_one
  · rename_i n count bytes hpc
    rw [hpc]
    split at h
    · rename_i hn
      split at h <;> cases h
      change p.ncpus - (n + 1) + p.ncpus + 3 < p.ncpus - n + p.ncpus + 3
      omega
    · cases h
      change p.ncpus - 0 + 2 < p.ncpus - n + p.ncpus + 3
      omega
  · rename_i n countStart bytesStart count bytes hpc
    rw [hpc]
    split at h
    · rename_i hn
      split at h <;> cases h
      change p.ncpus - (n + 1) + 2 < p.ncpus - n + 2
      omega
    · cases h
      change 1 < p.ncpus - n + 2
      omega
  · cases h

lemma mainWork_move (hmove : MainMove p s t) : procWork p t < procWork p s := by
  cases hmove with
  | spawnedAll n hmain hn =>
    simp only [procWork, hmain, mainWork]
    omega
  | spawnedReport next hmain hnext =>
    rcases hnext with rfl | rfl <;> simp only [procWork, hmain, mainWork, reportWork] <;> omega
  | slept hmain =>
    simp only [procWork, hmain, mainWork]
    omega
  | joined n w hmain hn hw hdone =>
    simp only [procWork, hmain, mainWork]
    omega
  | joinedAll n hmain hn =>
    simp only [procWork, hmain, mainWork]
    omega
  | joinedReport hmain hreport =>
    simp only [procWork, hmain, mainWork]
    omega
  | closed hmain =>
    simp only [procWork, hmain, mainWork]
    omega

/-- One thread goes on, and issues what it issues. -/
lemma procWork_set {qid : Nat} {w w' : Worker} (hw : s.workers[qid]? = some w)
    (more : List Transfer) (hless : workerWork p w' + more.length < workerWork p w)
    (ht : procWork p t =
      procWork p { s with workers := s.workers.set qid w', inFlight := s.inFlight ++ more }) :
    procWork p t < procWork p s := by
  have hsum := Table.sum_map_set (workerWork p) hw w'
  rw [ht]
  simp only [procWork, List.length_append]
  omega

lemma procWork_run {qid : Nat} {op : BenchOp} (hsig : s.caughtSignal = true)
    (h : runStep p s qid op = some t) : procWork p t < procWork p s := by
  unfold runStep at h
  split at h
  · cases h
  · rename_i w hw
    split at h
    · rename_i hok
      rw [hsig] at h
      split at h
      · cases h
      · rename_i th command hstart
        cases h
        have hthread := threadWork_step hstart
        have htransfer : (command.bind (w.transfer p)).toList.length ≤ command.toList.length := by
          cases command with
          | none => exact le_rfl
          | some c =>
            rw [Option.bind_some]
            cases w.transfer p c <;> simp
        refine procWork_set hw _ ?_ rfl
        simp only [workerWork, hok.1, if_true]
        omega
    · cases h

lemma procWork_alloc {qid : Nat} {malloc : Bool} (hlive : s.exited = false)
    (hmove : ProcMove p addr s (.alloc qid malloc) t) : procWork p t < procWork p s := by
  cases hmove with
  | noBuffer =>
    simp [procWork, hlive]
  | allocated qid malloc w mem pbuf hw hready hlt halloc =>
    refine procWork_set hw [] ?_ (by rw [List.append_nil]; rfl)
    simp only [workerWork, hready, List.length_append, List.length_singleton, List.length_nil]
    simp
    omega
  | ready qid malloc w hw hready hge =>
    refine procWork_set hw [] ?_ (by rw [List.append_nil])
    simp [workerWork, hready]

lemma procWork_main (hmove : ProcMove p addr s .main t) : procWork p t < procWork p s := by
  cases hmove with
  | spawned n hmain hn =>
    have hleft : p.ncpus - n = p.ncpus - (n + 1) + 1 := by omega
    have hfresh : workerWork p ⟨[], false, spawn p n⟩ = p.batch + 2 := by
      simp only [workerWork, spawn, threadWork, List.length_nil]
      simp
      omega
    simp only [procWork, hmain, mainWork, List.map_append, List.sum_append, List.map_singleton,
      List.sum_singleton, hfresh]
    rw [hleft, Nat.succ_mul]
    omega
  | main t hmain => exact mainWork_move hmain

lemma caughtSignal_move {op : ProcOp} (hsig : s.caughtSignal = true)
    (hmove : ProcMove p addr s op t) : t.caughtSignal = true := by
  cases hmove with
  | signalled => rfl
  | main t hmain => cases hmain <;> first | exact hsig | rfl
  | spawned | reported | noBuffer | allocated | ready | ran | completed => exact hsig

/-- Every step but another signal is one of those that were left. -/
lemma procWork_step (s : BenchProc) (op : ProcOp) (t : BenchProc) (hsig : s.caughtSignal = true)
    (h : procStep p addr time s op = some t) :
    t.caughtSignal = true ∧ procWork p t + (isWork op).toNat ≤ procWork p s := by
  have hmove : ProcMove p addr s op t := procStep_move h
  refine ⟨caughtSignal_move hsig hmove, ?_⟩
  unfold procStep at h
  split at h
  · cases h
  · rename_i hlive
    rw [Bool.not_eq_true] at hlive
    cases op with
    | signal =>
      cases hmove
      exact le_rfl
    | main => exact procWork_main hmove
    | report =>
      have hless := reportWork_step hsig h
      cases hmove
      simp only [procWork, isWork, Bool.toNat_true] at hless ⊢
      omega
    | alloc qid malloc => exact procWork_alloc hlive hmove
    | run qid op => exact procWork_run hsig h
    | complete i =>
      cases hmove with
      | completed i hi =>
        simp only [procWork, List.length_eraseIdx_of_lt hi, isWork, Bool.toNat_true]
        omega

end Work

/-! ### Somebody can go on -/

/-- `next_lba` does not divide by 0. -/
def CanWalk (p : BenchParam) (th : BenchThread) : Prop :=
  p.walk = .random → th.lbaEnd - th.lbaStart - BitVec.ofNat 64 p.nblocks ≠ 0

section Progress

variable {p : BenchParam} {addr : BitVec 64} {time : Int} {s t : BenchProc}

lemma CanWalk.nextLba {th : BenchThread} (h : CanWalk p th) (rand : BitVec 31) :
    ∃ lba, nextLba p.walk th.lba th.lbaStart th.lbaEnd (BitVec.ofNat 64 p.nblocks) rand =
      some lba := by
  unfold Libpop.nextLba
  cases hw : p.walk with
  | seq => exact ⟨_, rfl⟩
  | same => exact ⟨_, rfl⟩
  | random =>
    dsimp only
    rw [if_neg (h hw)]
    exact ⟨_, rfl⟩

lemma canWalk_move (hspawn : ∀ n < p.ncpus, CanWalk p (spawn p n))
    (h : ∀ w ∈ s.workers, CanWalk p w.th) {op : ProcOp} (hmove : ProcMove p addr s op t) :
    ∀ w ∈ t.workers, CanWalk p w.th := by
  have hset {qid : Nat} {w w' : Worker} (hw : s.workers[qid]? = some w)
      (hstart : w'.th.lbaStart = w.th.lbaStart)
      (hend : w'.th.lbaEnd = w.th.lbaEnd) : ∀ v ∈ s.workers.set qid w', CanWalk p v.th := by
    intro v hv
    rcases List.mem_or_eq_of_mem_set hv with hv | rfl
    · exact h v hv
    · intro hrandom
      rw [hstart, hend]
      exact h w (List.mem_of_getElem? hw) hrandom
  cases hmove with
  | signalled | reported | noBuffer | completed => exact h
  | main t hmain => cases hmain <;> exact h
  | spawned n hmain hn =>
    intro w hw
    rcases List.mem_append.mp hw with hw | hw
    · exact h w hw
    · rw [List.mem_singleton.mp hw]
      exact hspawn n hn
  | allocated qid malloc w mem pbuf hw hready hlt halloc => exact hset hw rfl rfl
  | ready qid malloc w hw hready hge => exact hset hw rfl rfl
  | ran qid op w th command hw hready hpoll hthread =>
    refine hset hw ?_ ?_ <;> cases hthread <;> rfl

/-- The page count of a buffer ends, so its allocation returns. -/
lemma popBufAllocPut_iosize (hshift : p.blockshift ≤ 32) (addr : BitVec 64) (mem : PopMem)
    (malloc : Bool) :
    ∃ mem' result, popBufAllocPut addr mem p.iosize malloc = some (mem', result) := by
  have hsize := toNat_iosize p hshift
  have hlt := p.size_lt
  have hle := nblocks_mul_le p hshift
  have hpages : (BitVec.ofNat 64 ((p.iosize.toNat + 4095) / 4096)).toNat =
      (p.iosize.toNat + 4095) / 4096 := by
    rw [BitVec.toNat_ofNat]
    omega
  have hnr := (nrPages_eq_some_iff p.iosize _).mpr ⟨by omega, hpages⟩
  unfold popBufAllocPut
  rw [popBufAlloc_eq_carve hnr]
  rcases popBufCarve mem _ malloc with ⟨mem', e | pbuf⟩
  · exact ⟨_, _, rfl⟩
  · exact ⟨_, _, rfl⟩

lemma allocStep_some (hshift : p.blockshift ≤ 32) (addr : BitVec 64) {qid : Nat} {w : Worker}
    (hw : s.workers[qid]? = some w) (hready : w.ready = false) :
    ∃ t, allocStep p addr s qid true = some t := by
  obtain ⟨mem, result, halloc⟩ := popBufAllocPut_iosize hshift addr s.mem true
  unfold allocStep
  simp only [hw, hready, Bool.false_eq_true, if_false, halloc]
  split
  · cases result with
    | error e => exact ⟨_, rfl⟩
    | ok pbuf => exact ⟨_, rfl⟩
  · exact ⟨_, rfl⟩

lemma benchStart_some (caught : Bool) (qid : Nat) {th : BenchThread} (hwalk : CanWalk p th)
    (hlive : th.pc ≠ .done) :
    ∃ op th' command, benchStart p caught qid th op = some (th', command) := by
  unfold benchStart
  cases hpc : th.pc with
  | loop => exact ⟨.loop, _, _, rfl⟩
  | issue b =>
    obtain ⟨lba, hlba⟩ := hwalk.nextLba 0
    refine ⟨.issue 0, ?_⟩
    dsimp only
    rw [hlba]
    exact ⟨_, _, rfl⟩
  | poll b => exact ⟨.poll 0, _, _, rfl⟩
  | done => exact absurd hpc hlive

/-- A thread in its loop can go on when the device is done with everything. -/
lemma runStep_some (hidle : s.inFlight = []) {qid : Nat} {w : Worker}
    (hw : s.workers[qid]? = some w) (hready : w.ready = true) (hwalk : CanWalk p w.th)
    (hlive : w.th.pc ≠ .done) : ∃ op t, runStep p s qid op = some t := by
  obtain ⟨op, th, command, hstart⟩ := benchStart_some s.caughtSignal qid hwalk hlive
  have hpoll : PollOk s qid w.th op := by
    unfold PollOk
    split
    · simp [hidle]
    · trivial
  unfold runStep
  refine ⟨op, ?_⟩
  simp only [hw, hready, hpoll, and_self, if_true, hstart]
  exact ⟨_, rfl⟩

lemma reportStep_some (hlen : s.workers.length = p.ncpus) (hcreated : s.report ≠ .notCreated)
    (hlive : s.report ≠ .done) : ∃ t, reportStep p s = some t := by
  have hworker {n : Nat} (hn : n < p.ncpus) : ∃ w, s.workers[n]? = some w :=
    ⟨_, List.getElem?_eq_getElem (by omega)⟩
  unfold reportStep
  split
  · contradiction
  · exact ⟨_, rfl⟩
  · split
    · rename_i hn
      obtain ⟨w, hw⟩ := hworker hn
      rw [hw]
      exact ⟨_, rfl⟩
    · exact ⟨_, rfl⟩
  · split
    · rename_i hn
      obtain ⟨w, hw⟩ := hworker hn
      rw [hw]
      exact ⟨_, rfl⟩
    · exact ⟨_, rfl⟩
  · contradiction

/-- `main` waits for threads and for the report thread only. -/
lemma mainStep_some (time : Int) (hlen : (∀ n, s.main ≠ .spawn n) → s.workers.length = p.ncpus)
    (hjoin : ∀ n w, s.main = .join n → s.workers[n]? = some w → w.th.pc = .done)
    (hreport : s.main = .joinReport → s.report = .done) (hmain : s.main ≠ .exit) :
    ∃ t, mainStep p time s = some t := by
  unfold mainStep
  cases hpc : s.main with
  | spawn n => by_cases hn : n < p.ncpus <;> simp [hn]
  | spawnReport => exact ⟨_, rfl⟩
  | sleep => exact ⟨_, rfl⟩
  | join n =>
    by_cases hn : n < p.ncpus
    · obtain ⟨w, hw⟩ : ∃ w, s.workers[n]? = some w :=
        ⟨_, List.getElem?_eq_getElem ((hlen (by simp [hpc])).symm ▸ hn)⟩
      simp [hn, hw, hjoin n w hpc hw]
    · simp [hn]
  | joinReport => simp [hreport hpc]
  | close => exact ⟨_, rfl⟩
  | exit => exact absurd hpc hmain

/-- As long as `main` has not returned, a step is left that somebody can take. -/
lemma procStep_some (addr : BitVec 64) (time : Int) (hshift : p.blockshift ≤ 32)
    (hinv : ProcInv p s) (hwalk : ∀ w ∈ s.workers, CanWalk p w.th) (hexited : s.exited = false)
    (hmain : s.main ≠ .exit) : ∃ op t, isWork op = true ∧ procStep p addr time s op = some t := by
  simp only [procStep, hexited, Bool.false_eq_true, if_false]
  by_cases hidle : s.inFlight = []
  · by_cases hjoin : ∃ n w, s.main = .join n ∧ s.workers[n]? = some w ∧ w.th.pc ≠ .done
    · -- `main` waits for this thread
      obtain ⟨n, w, -, hw, hlive⟩ := hjoin
      cases hready : w.ready with
      | false =>
        obtain ⟨t, ht⟩ := allocStep_some hshift addr hw hready
        exact ⟨.alloc n true, t, rfl, ht⟩
      | true =>
        obtain ⟨op, t, ht⟩ := runStep_some hidle hw hready (hwalk w (List.mem_of_getElem? hw)) hlive
        exact ⟨.run n op, t, rfl, ht⟩
    · by_cases hreport : s.main = .joinReport ∧ s.report ≠ .done
      · obtain ⟨hpc, hlive⟩ := hreport
        have hcreated : s.report ≠ .notCreated :=
          fun hnone => by simpa [hpc] using hinv.created hnone
        obtain ⟨t, ht⟩ := reportStep_some (hinv.ends.spawned (by simp [hpc])) hcreated hlive
        exact ⟨.report, t, rfl, ht⟩
      · obtain ⟨t, ht⟩ := mainStep_some time hinv.ends.spawned
          (fun n w hpc hw => by_contra fun hlive => hjoin ⟨n, w, hpc, hw, hlive⟩)
          (fun hpc => by_contra fun hlive => hreport ⟨hpc, hlive⟩) hmain
        exact ⟨.main, t, rfl, ht⟩
  · -- the device is not done
    have hpos : 0 < s.inFlight.length := List.length_pos_iff.mpr hidle
    exact ⟨.complete 0, _, rfl, if_pos hpos⟩

end Progress

/-! ### The end -/

/-- However the process goes on once the signal is caught, it takes a bounded number of steps, and
where it cannot take another one it has ended: by the `exit` of a thread that got no buffer, or
by `main` after all threads. -/
theorem bench_ends_after_signal (p : BenchParam) (hshift : p.blockshift ≤ 32)
    (hwalk : ∀ n < p.ncpus, CanWalk p (spawn p n)) (addr : BitVec 64) (time : Int) (mem : PopMem)
    {ops ops' : List ProcOp} {s t : BenchProc}
    (hrun : exec (procStep p addr time) (procInit mem) ops = some s) (hsig : s.caughtSignal = true)
    (hrest : exec (procStep p addr time) s ops' = some t) :
    ops'.countP isWork ≤ procWork p s ∧
      ((∀ op, isWork op = true → procStep p addr time t op = none) →
        t.exited = true ∨ t.main = .exit ∧ t.report = .done ∧ ∀ w ∈ t.workers, w.th.pc = .done) := by
  have hstep (s : BenchProc) (op : ProcOp) (t : BenchProc) (h : ProcInv p s ∧ ∀ w ∈ s.workers, CanWalk p w.th)
      (hs : procStep p addr time s op = some t) : ProcInv p t ∧ ∀ w ∈ t.workers, CanWalk p w.th := by
    have hmove := procStep_move hs
    exact ⟨procInv_move h.1 hmove, canWalk_move hwalk h.2 hmove⟩
  have hinit : ProcInv p (procInit mem) ∧ ∀ w ∈ (procInit mem).workers, CanWalk p w.th :=
    ⟨procInv_procInit p mem, by simp [procInit]⟩
  have hs := exec_invariant hstep hinit hrun
  obtain ⟨hinv, hwalks⟩ := exec_invariant hstep hs hrest
  refine ⟨?_, ?_⟩
  · have hbudget := (exec_budget (fun s op t h hs => procWork_step s op t h hs) hsig hrest).2
    omega
  · intro hstuck
    by_contra hnot
    rw [not_or, Bool.not_eq_true] at hnot
    obtain ⟨hexited, hnotDone⟩ := hnot
    by_cases hmain : t.main = .exit
    · exact hnotDone ⟨hmain, hinv.ends.report (.inr hmain), fun w hw => hinv.ends.all_done (.inr hmain) hw⟩
    · obtain ⟨op, u, hwork, hu⟩ := procStep_some addr time hshift hinv hwalks hexited hmain
      rw [hstuck op hwork] at hu
      cases hu

/-- The two writers from the end of their time on. -/
theorem bench_ends_two :
    ∃ s t, exec (procStep twoWriters 0x1000 1) (procInit benchMem) (twoWritersRun.take 25) =
      some s ∧
      exec (procStep twoWriters 0x1000 1) s (twoWritersRun.drop 25) = some t ∧ t.main = .exit ∧
      (twoWritersRun.drop 25).countP isWork ≤ procWork twoWriters s ∧
      ((∀ op, isWork op = true → procStep twoWriters 0x1000 1 t op = none) →
        t.exited = true ∨ t.main = .exit ∧ t.report = .done ∧ ∀ w ∈ t.workers, w.th.pc = .done) := by
  have hfirst :
      (exec (procStep twoWriters 0x1000 1) (procInit benchMem) (twoWritersRun.take 25)).map
      (fun s => (s.caughtSignal, (exec (procStep twoWriters 0x1000 1) s (twoWritersRun.drop 25)).map
        BenchProc.main)) = some (true, some .exit) := by decide +kernel
  obtain ⟨s, hs, hboth⟩ := Option.map_eq_some_iff.mp hfirst
  obtain ⟨hsig, hrest⟩ := Prod.mk.inj hboth
  obtain ⟨t, ht, hmain⟩ := Option.map_eq_some_iff.mp hrest
  have hwalk : ∀ n < twoWriters.ncpus, CanWalk twoWriters (spawn twoWriters n) := by
    intro n _ hrandom
    cases hrandom
  exact ⟨s, t, hs, ht, hmain,
    bench_ends_after_signal twoWriters (by decide) hwalk 0x1000 1 benchMem hs hsig ht⟩

end Libpop.Proofs

import Mathlib.Data.List.Pairwise
import Libpop.BenchMain
import Libpop.Proofs.AllocLinear
import Libpop.Proofs.BenchRanges

/-!
# The transfers of bench-nvme

A thread issues a command for each of its buffers and polls for all of them before it looks at
the signal again. As long as no poll times out, the commands that the device works on at any
time use different parts of the memory, and none is left when `main` closes the device and
gives the memory back.
-/

namespace Libpop.Proofs
open BenchNvme Execution

/-! ### What a step can do -/

/-- The steps of the main loop of a thread. -/
inductive ThreadMove (p : BenchParam) (qid : Nat) (th : BenchThread) :
    BenchOp → BenchThread → Option Command → Prop
  | looped (pc : Pc) (hpc : th.pc = .loop) (hnext : pc = .done ∨ pc = issueFrom p 0) :
      ThreadMove p qid th .loop { th with pc := pc } none
  | issued (b : Nat) (rand : BitVec 31) (lba : BitVec 64) (hpc : th.pc = .issue b) :
      ThreadMove p qid th (.issue rand) { th with pc := issueFrom p (b + 1), lba := lba }
        (some ⟨qid, b, p.mode, th.lba, BitVec.ofNat 32 p.nblocks⟩)
  | polled (b : Nat) (hpc : th.pc = .poll b) :
      ThreadMove p qid th (.poll 0)
        { th with
          pc := pollFrom p (b + 1), bytes := th.bytes + BitVec.ofNat 64 p.size,
          count := th.count + 1 } none
  | timedOut (b : Nat) (ret : Int) (hpc : th.pc = .poll b) (hret : ret ≠ 0) :
      ThreadMove p qid th (.poll ret) { th with pc := pollFrom p (b + 1) } none

lemma benchStart_cases {p : BenchParam} {caught : Bool} {qid : Nat} {th th' : BenchThread}
    {op : BenchOp} {command : Option Command}
    (h : benchStart p caught qid th op = some (th', command)) :
    ThreadMove p qid th op th' command := by
  unfold benchStart at h
  split at h
  · rename_i hpc
    cases h
    refine .looped _ hpc ?_
    cases caught
    · exact .inr rfl
    · exact .inl rfl
  · rename_i b rand hpc
    split at h
    · cases h
    · cases h
      exact .issued b rand _ hpc
  · rename_i b ret hpc
    dsimp only at h
    split at h
    · rename_i hret
      cases h
      subst hret
      exact .polled b hpc
    · rename_i hret
      cases h
      exact .timedOut b ret hpc hret
  · cases h

/-- The steps of `main` behind the creation of its threads. -/
inductive MainMove (p : BenchParam) (s : BenchProc) : BenchProc → Prop
  | spawnedAll (n : Nat) (hmain : s.main = .spawn n) (hn : ¬n < p.ncpus) :
      MainMove p s { s with main := .spawnReport }
  | spawnedReport (next : MainPc) (hmain : s.main = .spawnReport) (hnext : next = .sleep ∨ next = .join 0) :
      MainMove p s { s with report := .top, main := next }
  | slept (hmain : s.main = .sleep) : MainMove p s { s with caughtSignal := true, main := .join 0 }
  | joined (n : Nat) (w : Worker) (hmain : s.main = .join n) (hn : n < p.ncpus) (hw : s.workers[n]? = some w)
      (hdone : w.th.pc = .done) : MainMove p s { s with main := .join (n + 1) }
  | joinedAll (n : Nat) (hmain : s.main = .join n) (hn : ¬n < p.ncpus) :
      MainMove p s { s with main := .joinReport }
  | joinedReport (hmain : s.main = .joinReport) (hreport : s.report = .done) :
      MainMove p s { s with main := .close }
  | closed (hmain : s.main = .close) : MainMove p s { s with main := .exit }

inductive ProcMove (p : BenchParam) (addr : BitVec 64) (s : BenchProc) : ProcOp → BenchProc → Prop
  | signalled : ProcMove p addr s .signal { s with caughtSignal := true }
  | spawned (n : Nat) (hmain : s.main = .spawn n) (hn : n < p.ncpus) :
      ProcMove p addr s .main
        { s with main := .spawn (n + 1), workers := s.workers ++ [⟨[], false, spawn p n⟩] }
  | main (t : BenchProc) (h : MainMove p s t) : ProcMove p addr s .main t
  | reported (pc : ReportPc) (printed : List Interim) (hcreated : s.report ≠ .notCreated)
      (hlive : s.report ≠ .done) (hpc : pc ≠ .notCreated) :
      ProcMove p addr s .report { s with report := pc, printed := printed }
  | noBuffer (qid : Nat) (malloc : Bool) : ProcMove p addr s (.alloc qid malloc) { s with exited := true }
  | allocated (qid : Nat) (malloc : Bool) (w : Worker) (mem : PopMem) (pbuf : Pbuf)
      (hw : s.workers[qid]? = some w) (hready : w.ready = false) (hlt : w.bufs.length < p.batch)
      (halloc : popBufAllocPut addr s.mem p.iosize malloc = some (mem, .ok pbuf)) :
      ProcMove p addr s (.alloc qid malloc)
        { s with mem := mem, workers := s.workers.set qid { w with bufs := w.bufs ++ [pbuf] } }
  | ready (qid : Nat) (malloc : Bool) (w : Worker) (hw : s.workers[qid]? = some w) (hready : w.ready = false)
      (hge : ¬w.bufs.length < p.batch) :
      ProcMove p addr s (.alloc qid malloc) { s with workers := s.workers.set qid { w with ready := true } }
  | ran (qid : Nat) (op : BenchOp) (w : Worker) (th : BenchThread) (command : Option Command)
      (hw : s.workers[qid]? = some w) (hready : w.ready = true) (hpoll : PollOk s qid w.th op)
      (hmove : ThreadMove p qid w.th op th command) :
      ProcMove p addr s (.run qid op)
        { s with
          workers := s.workers.set qid { w with th := th }
          inFlight := s.inFlight ++ (command.bind (w.transfer p)).toList
          commands := s.commands ++ command.toList }
  | completed (i : Nat) (hi : i < s.inFlight.length) :
      ProcMove p addr s (.complete i) { s with inFlight := s.inFlight.eraseIdx i }

section Inversion

variable {p : BenchParam} {addr : BitVec 64} {time : Int} {s t : BenchProc}

lemma mainStep_move (h : mainStep p time s = some t) : ProcMove p addr s .main t := by
  unfold mainStep at h
  split at h
  · rename_i n hmain
    split at h
    · rename_i hn
      cases h
      exact .spawned n hmain hn
    · rename_i hn
      cases h
      exact .main _ (.spawnedAll n hmain hn)
  · rename_i hmain
    cases h
    refine .main _ (.spawnedReport _ hmain ?_)
    split
    · exact .inl rfl
    · exact .inr rfl
  · rename_i hmain
    cases h
    exact .main _ (.slept hmain)
  · rename_i n hmain
    split at h
    · rename_i hn
      split at h
      · cases h
      · rename_i w hw
        split at h
        · rename_i hdone
          cases h
          exact .main _ (.joined n w hmain hn hw hdone)
        · cases h
    · rename_i hn
      cases h
      exact .main _ (.joinedAll n hmain hn)
  · rename_i hmain
    split at h
    · rename_i hreport
      cases h
      exact .main _ (.joinedReport hmain hreport)
    · cases h
  · rename_i hmain
    cases h
    exact .main _ (.closed hmain)
  · cases h

lemma reportStep_move (h : reportStep p s = some t) : ProcMove p addr s .report t := by
  unfold reportStep at h
  split at h
  · cases h
  · rename_i hpc
    cases h
    refine .reported _ _ (by simp [hpc]) (by simp [hpc]) ?_
    split <;> simp
  · rename_i hpc
    split at h
    · split at h <;> cases h
      exact .reported _ _ (by simp [hpc]) (by simp [hpc]) (by simp)
    · cases h
      exact .reported _ _ (by simp [hpc]) (by simp [hpc]) (by simp)
  · rename_i hpc
    split at h
    · split at h <;> cases h
      exact .reported _ _ (by simp [hpc]) (by simp [hpc]) (by simp)
    · cases h
      exact .reported _ _ (by simp [hpc]) (by simp [hpc]) (by simp)
  · cases h

lemma popBufAllocPut_error {addr size : BitVec 64} {mem mem' : PopMem} {malloc : Bool}
    {e : AllocError} (h : popBufAllocPut addr mem size malloc = some (mem', .error e)) :
    mem' = mem := by
  unfold popBufAllocPut at h
  split at h
  · cases h
  · rename_i halloc
    cases h
    cases popBufAlloc_exit halloc
    rfl
  · cases h

lemma allocStep_move {qid : Nat} {malloc : Bool} (h : allocStep p addr s qid malloc = some t) :
    ProcMove p addr s (.alloc qid malloc) t := by
  unfold allocStep at h
  split at h
  · cases h
  · rename_i w hw
    split at h
    · cases h
    · rename_i hready
      rw [Bool.not_eq_true] at hready
      split at h
      · rename_i hlt
        split at h
        · cases h
        · rename_i halloc
          cases h
          rw [popBufAllocPut_error halloc]
          exact .noBuffer qid malloc
        · rename_i halloc
          cases h
          exact .allocated qid malloc w _ _ hw hready hlt halloc
      · rename_i hge
        cases h
        exact .ready qid malloc w hw hready hge

lemma runStep_move {qid : Nat} {op : BenchOp} (h : runStep p s qid op = some t) :
    ProcMove p addr s (.run qid op) t := by
  unfold runStep at h
  split at h
  · cases h
  · rename_i w hw
    split at h
    · rename_i hok
      split at h
      · cases h
      · rename_i th command hstart
        cases h
        exact .ran qid op w th command hw hok.1 hok.2 (benchStart_cases hstart)
    · cases h

theorem procStep_move {op : ProcOp} (h : procStep p addr time s op = some t) :
    ProcMove p addr s op t := by
  unfold procStep at h
  split at h
  · cases h
  · cases op with
    | signal =>
      cases h
      exact .signalled
    | main => exact mainStep_move h
    | report => exact reportStep_move h
    | alloc qid malloc => exact allocStep_move h
    | run qid op => exact runStep_move h
    | complete i =>
      dsimp only at h
      split at h
      · rename_i hi
        cases h
        exact .completed i hi
      · cases h

end Inversion

/-! ### Commands in flight -/

/-- Where a thread stands when its command `b` may be in flight. -/
def Window (b : Nat) : Pc → Prop
  | .issue k => b < k
  | .poll k => k ≤ b
  | _ => False

lemma window_issueFrom {p : BenchParam} {b k : Nat} (hb : b < p.batch) (hle : b ≤ k) :
    Window b (issueFrom p (k + 1)) := by
  unfold issueFrom pollFrom
  split
  · exact Nat.lt_succ_of_le hle
  · rw [if_pos (by omega)]
    exact Nat.zero_le b

lemma window_pollFrom {p : BenchParam} {b k : Nat} (hb : b < p.batch) (hlt : k < b) :
    Window b (pollFrom p (k + 1)) := by
  unfold pollFrom
  rw [if_pos (by omega)]
  exact hlt

/-- A thread enters its loop with a buffer for every command of a pass. -/
structure WorkerOk (p : BenchParam) (w : Worker) : Prop where
  le : w.bufs.length ≤ p.batch
  full : w.ready = true → w.bufs.length = p.batch
  idle : w.ready = false → w.th.pc = .loop
  issue_lt : ∀ b, w.th.pc = .issue b → b < p.batch

structure FlightInv (p : BenchParam) (workers : List Worker) (inFlight : List Transfer) : Prop where
  flights : ∀ t ∈ inFlight, ∃ w pbuf, workers[t.qid]? = some w ∧ w.bufs[t.b]? = some pbuf ∧
    t.addr = popBufData pbuf ∧ t.len = p.nblocks * p.blocksize ∧ Window t.b w.th.pc
  keys : (inFlight.map fun t => (t.qid, t.b)).Nodup

section Workers

variable {p : BenchParam} {workers : List Worker} {qid : Nat} {w : Worker}

lemma workerOk_spawn (n : Nat) : WorkerOk p ⟨[], false, spawn p n⟩ where
  le := Nat.zero_le _
  full := nofun
  idle _ := rfl
  issue_lt _ := nofun

/-- A step of the loop, also when a poll times out. -/
lemma WorkerOk.run (h : WorkerOk p w) (hready : w.ready = true) {th : BenchThread} {op : BenchOp}
    {command : Option Command} (hmove : ThreadMove p qid w.th op th command) :
    WorkerOk p { w with th := th } := by
  refine ⟨h.le, h.full, fun hidle => absurd (hready.symm.trans hidle) (by decide), ?_⟩
  cases hmove with
  | looped pc hpc hnext =>
    rintro b rfl
    rcases hnext with hnext | hnext
    · cases hnext
    · exact issueFrom_batch hnext.symm
  | issued b rand lba hpc => exact fun k hk => issueFrom_batch hk
  | polled b hpc => exact fun k hk => absurd hk pollFrom_ne_issue
  | timedOut b ret hpc hret => exact fun k hk => absurd hk pollFrom_ne_issue

lemma workersOk_set (h : ∀ w ∈ workers, WorkerOk p w) (hok : WorkerOk p w) :
    ∀ v ∈ workers.set qid w, WorkerOk p v := by
  intro v hv
  rcases List.mem_or_eq_of_mem_set hv with hv | rfl
  · exact h v hv
  · exact hok

lemma workersOk_move {addr : BitVec 64} {s t : BenchProc} {op : ProcOp}
    (h : ∀ w ∈ s.workers, WorkerOk p w) (hmove : ProcMove p addr s op t) :
    ∀ w ∈ t.workers, WorkerOk p w := by
  cases hmove with
  | signalled | reported | noBuffer | completed => exact h
  | main t hmain => cases hmain <;> exact h
  | spawned n hmain hn =>
    intro w hw
    rcases List.mem_append.mp hw with hw | hw
    · exact h w hw
    · rw [List.mem_singleton.mp hw]
      exact workerOk_spawn n
  | allocated qid malloc w mem pbuf hw hready hlt halloc =>
    have hworker := h w (List.mem_of_getElem? hw)
    refine workersOk_set h ⟨?_, fun hr => absurd (hready.symm.trans hr) (by decide),
      hworker.idle, hworker.issue_lt⟩
    rw [List.length_append, List.length_singleton]
    exact hlt
  | ready qid malloc w hw hready hge =>
    have hworker := h w (List.mem_of_getElem? hw)
    refine workersOk_set h ⟨hworker.le, fun _ => ?_, nofun, hworker.issue_lt⟩
    exact le_antisymm hworker.le (not_lt.mp hge)
  | ran qid op w th command hw hready hpoll hthread =>
    exact workersOk_set h ((h w (List.mem_of_getElem? hw)).run hready hthread)

end Workers

section Flights

variable {p : BenchParam} {workers : List Worker} {inFlight : List Transfer}
  {qid : Nat} {w : Worker}

lemma FlightInv.spawned (h : FlightInv p workers inFlight) (w : Worker) :
    FlightInv p (workers ++ [w]) inFlight := by
  refine ⟨?_, h.keys⟩
  intro t ht
  obtain ⟨v, pbuf, hv, hrest⟩ := h.flights t ht
  refine ⟨v, pbuf, ?_, hrest⟩
  rw [List.getElem?_append_left (List.getElem?_eq_some_iff.mp hv).1, hv]

/-- A thread goes on: its own commands in flight are still those of its buffers. -/
lemma FlightInv.replaced (h : FlightInv p workers inFlight) (hw : workers[qid]? = some w)
    {w' : Worker}
    (hown : ∀ t ∈ inFlight, t.qid = qid → Window t.b w.th.pc → ∀ pbuf, w.bufs[t.b]? = some pbuf →
      w'.bufs[t.b]? = some pbuf ∧ Window t.b w'.th.pc) :
    FlightInv p (workers.set qid w') inFlight := by
  refine ⟨?_, h.keys⟩
  intro t ht
  obtain ⟨v, pbuf, hv, hbuf, haddr, hlen, hwindow⟩ := h.flights t ht
  by_cases hq : t.qid = qid
  · rw [hq, hw, Option.some.injEq] at hv
    subst hv
    obtain ⟨hbuf', hwindow'⟩ := hown t ht hq hwindow pbuf hbuf
    exact ⟨w', pbuf, hq ▸ Table.getElem?_set_self_of_some hw w', hbuf', haddr, hlen, hwindow'⟩
  · refine ⟨v, pbuf, ?_, hbuf, haddr, hlen, hwindow⟩
    rw [List.getElem?_set_ne fun he => hq he.symm, hv]

lemma FlightInv.landed (h : FlightInv p workers inFlight) (i : Nat) :
    FlightInv p workers (inFlight.eraseIdx i) := by
  have hsub := List.eraseIdx_sublist inFlight i
  exact ⟨fun t ht => h.flights t (hsub.subset ht), h.keys.sublist (hsub.map _)⟩

/-- A command is issued for the next buffer. -/
lemma FlightInv.issued (h : FlightInv p workers inFlight) (hworker : WorkerOk p w)
    (hw : workers[qid]? = some w) (hready : w.ready = true) {b : Nat} (hpc : w.th.pc = .issue b)
    {th : BenchThread} (hth : th.pc = issueFrom p (b + 1)) (lba : BitVec 64) :
    FlightInv p (workers.set qid { w with th := th })
      (inFlight ++ (w.transfer p ⟨qid, b, p.mode, lba, BitVec.ofNat 32 p.nblocks⟩).toList) := by
  have hb := hworker.issue_lt b hpc
  have hfull := hworker.full hready
  obtain ⟨pbuf, hbuf⟩ : ∃ pbuf, w.bufs[b]? = some pbuf := ⟨_, List.getElem?_eq_getElem (by omega)⟩
  have htransfer : w.transfer p ⟨qid, b, p.mode, lba, BitVec.ofNat 32 p.nblocks⟩ =
      some ⟨qid, b, popBufData pbuf, p.nblocks * p.blocksize⟩ := by
    unfold Worker.transfer
    rw [hbuf, Option.map_some, BitVec.toNat_ofNat, Nat.mod_eq_of_lt (nblocks_lt p)]
  have hset : FlightInv p (workers.set qid { w with th := th }) inFlight := h.replaced hw (by
    intro t ht hq hwindow pbuf' hbuf'
    rw [hpc] at hwindow
    have htb : t.b < p.batch := by
      have hlt := (List.getElem?_eq_some_iff.mp hbuf').1
      omega
    exact ⟨hbuf', hth ▸ window_issueFrom htb (Nat.le_of_lt hwindow)⟩)
  rw [htransfer]
  refine ⟨?_, ?_⟩
  · intro t ht
    rcases List.mem_append.mp ht with ht | ht
    · exact hset.flights t ht
    · rw [Option.toList_some, List.mem_singleton] at ht
      subst ht
      refine ⟨{ w with th := th }, pbuf, Table.getElem?_set_self_of_some hw _, hbuf, rfl, rfl, ?_⟩
      exact hth ▸ window_issueFrom hb le_rfl
  · rw [Option.toList_some, List.map_append, List.map_singleton, ← List.concat_eq_append]
    refine List.Nodup.concat ?_ h.keys
    intro hin
    obtain ⟨t, ht, hkey⟩ := List.mem_map.mp hin
    obtain ⟨hq, hb'⟩ := Prod.mk.inj hkey
    obtain ⟨v, pbuf', hv, -, -, -, hwindow⟩ := h.flights t ht
    rw [hq, hw, Option.some.injEq] at hv
    subst hv
    rw [hpc, hb'] at hwindow
    exact absurd hwindow (lt_irrefl b)

end Flights

/-- No poll times out. -/
def PollsInTime (_ : BenchProc) : ProcOp → Prop
  | .run _ (.poll ret) => ret = 0
  | _ => True

instance (s : BenchProc) (op : ProcOp) : Decidable (PollsInTime s op) := by
  unfold PollsInTime
  split <;> infer_instance

lemma flightInv_move {p : BenchParam} {addr : BitVec 64} {s t : BenchProc} {op : ProcOp}
    (h : FlightInv p s.workers s.inFlight) (hworkers : ∀ w ∈ s.workers, WorkerOk p w)
    (hop : PollsInTime s op) (hmove : ProcMove p addr s op t) :
    FlightInv p t.workers t.inFlight := by
  cases hmove with
  | signalled => exact h
  | spawned n hmain hn => exact h.spawned _
  | main t hmain => cases hmain <;> exact h
  | reported pc printed => exact h
  | noBuffer qid malloc => exact h
  | allocated qid malloc w mem pbuf hw hready hlt halloc =>
    have hpc := (hworkers w (List.mem_of_getElem? hw)).idle hready
    refine h.replaced hw ?_
    intro t ht hq hwindow
    rw [hpc] at hwindow
    exact hwindow.elim
  | ready qid malloc w hw hready hge =>
    refine h.replaced hw ?_
    intro t ht hq hwindow pbuf hbuf
    exact ⟨hbuf, hwindow⟩
  | ran qid op w th command hw hready hpoll hthread =>
    have hworker := hworkers w (List.mem_of_getElem? hw)
    have hfull := hworker.full hready
    cases hthread with
    | looped pc hpc hnext =>
      rw [Option.bind_none, Option.toList_none, List.append_nil]
      refine h.replaced hw ?_
      intro t ht hq hwindow
      rw [hpc] at hwindow
      exact hwindow.elim
    | issued b rand lba hpc => exact h.issued hworker hw hready hpc rfl w.th.lba
    | polled b hpc =>
      rw [Option.bind_none, Option.toList_none, List.append_nil]
      refine h.replaced hw ?_
      intro t ht hq hwindow pbuf hbuf
      refine ⟨hbuf, window_pollFrom ?_ ?_⟩
      · have hlt := (List.getElem?_eq_some_iff.mp hbuf).1
        omega
      · -- the poll has succeeded, so command `b` itself has landed
        have hne : b ≠ t.b := by
          rintro rfl
          exact hpoll rfl t ht hq hpc
        rw [hpc] at hwindow
        exact lt_of_le_of_ne hwindow hne
    | timedOut b ret hpc hret => exact absurd hop hret
  | completed i hi => exact h.landed i

lemma flightInv_procInit (p : BenchParam) (mem : PopMem) :
    FlightInv p (procInit mem).workers (procInit mem).inFlight :=
  ⟨by simp [procInit], List.nodup_nil⟩

/-! ### The end of the process -/

/-- The threads that `main` has joined. -/
def joinedCount (p : BenchParam) : MainPc → Nat
  | .join n => n
  | .joinReport | .close | .exit => p.ncpus
  | _ => 0

structure EndInv (p : BenchParam) (s : BenchProc) : Prop where
  spawning : ∀ n, s.main = .spawn n → n = s.workers.length ∧ n ≤ p.ncpus
  spawned : (∀ n, s.main ≠ .spawn n) → s.workers.length = p.ncpus
  joined : ∀ k < joinedCount p s.main, ∃ w, s.workers[k]? = some w ∧ w.th.pc = .done
  report : s.main = .close ∨ s.main = .exit → s.report = .done

lemma endInv_procInit (p : BenchParam) (mem : PopMem) : EndInv p (procInit mem) := by
  refine ⟨?_, fun hno => absurd rfl (hno 0), nofun, by simp [procInit]⟩
  intro n hn
  cases hn
  exact ⟨rfl, Nat.zero_le _⟩

section End

variable {p : BenchParam} {addr : BitVec 64} {s t : BenchProc} {op : ProcOp}

/-- A thread that has ended is left alone. -/
lemma EndInv.replaced (h : EndInv p s) {qid : Nat} {w w' : Worker} (hw : s.workers[qid]? = some w)
    (hlive : w.th.pc ≠ .done) {t : BenchProc} (hmain : t.main = s.main)
    (hreport : t.report = s.report) (hworkers : t.workers = s.workers.set qid w') : EndInv p t := by
  refine ⟨?_, ?_, ?_, ?_⟩
  · rw [hmain, hworkers, List.length_set]
    exact h.spawning
  · rw [hmain, hworkers, List.length_set]
    exact h.spawned
  · intro k hk
    rw [hmain] at hk
    obtain ⟨v, hv, hdone⟩ := h.joined k hk
    refine ⟨v, ?_, hdone⟩
    have hne : qid ≠ k := by
      rintro rfl
      rw [hw, Option.some.injEq] at hv
      subst hv
      exact hlive hdone
    rw [hworkers, List.getElem?_set_ne hne, hv]
  · rw [hmain, hreport]
    exact h.report

lemma endInv_main (h : EndInv p s) (hmove : MainMove p s t) : EndInv p t := by
  cases hmove with
  | spawnedAll n hmain hn =>
    obtain ⟨hlen, hle⟩ := h.spawning n hmain
    refine ⟨nofun, fun _ => ?_, nofun, by simp⟩
    change s.workers.length = p.ncpus
    omega
  | spawnedReport next hmain hnext =>
    have hlen := h.spawned (by simp [hmain])
    rcases hnext with rfl | rfl <;> exact ⟨nofun, fun _ => hlen, nofun, by simp⟩
  | slept hmain =>
    have hlen := h.spawned (by simp [hmain])
    exact ⟨nofun, fun _ => hlen, nofun, by simp⟩
  | joined n w hmain hn hw hdone =>
    have hlen := h.spawned (by simp [hmain])
    refine ⟨nofun, fun _ => hlen, fun k hk => ?_, by simp⟩
    rcases Nat.lt_succ_iff_lt_or_eq.mp hk with hbefore | rfl
    · apply h.joined k
      rw [hmain]
      exact hbefore
    · exact ⟨w, hw, hdone⟩
  | joinedAll n hmain hn =>
    have hlen := h.spawned (by simp [hmain])
    refine ⟨nofun, fun _ => hlen, fun k hk => ?_, by simp⟩
    apply h.joined k
    rw [hmain]
    have hk' : k < p.ncpus := hk
    change k < n
    omega
  | joinedReport hmain hreport =>
    have hlen := h.spawned (by simp [hmain])
    have hjoined := h.joined
    rw [hmain] at hjoined
    exact ⟨nofun, fun _ => hlen, hjoined, fun _ => hreport⟩
  | closed hmain =>
    have hlen := h.spawned (by simp [hmain])
    have hjoined := h.joined
    rw [hmain] at hjoined
    exact ⟨nofun, fun _ => hlen, hjoined, fun _ => h.report (.inl hmain)⟩

lemma endInv_move (h : EndInv p s) (hworkers : ∀ w ∈ s.workers, WorkerOk p w)
    (hmove : ProcMove p addr s op t) : EndInv p t := by
  cases hmove with
  | signalled => exact ⟨h.spawning, h.spawned, h.joined, h.report⟩
  | spawned n hmain hn =>
    obtain ⟨hlen, -⟩ := h.spawning n hmain
    refine ⟨fun k hk => ?_, fun hno => absurd rfl (hno (n + 1)), nofun, by simp⟩
    cases hk
    rw [List.length_append, List.length_singleton, ← hlen]
    exact ⟨rfl, hn⟩
  | main t hmain => exact endInv_main h hmain
  | reported pc printed hcreated hlive hpc =>
    exact ⟨h.spawning, h.spawned, h.joined, fun hclose => absurd (h.report hclose) hlive⟩
  | noBuffer qid malloc => exact ⟨h.spawning, h.spawned, h.joined, h.report⟩
  | allocated qid malloc w mem pbuf hw hready hlt halloc =>
    have hpc := (hworkers w (List.mem_of_getElem? hw)).idle hready
    exact h.replaced hw (by simp [hpc]) rfl rfl rfl
  | ready qid malloc w hw hready hge =>
    have hpc := (hworkers w (List.mem_of_getElem? hw)).idle hready
    exact h.replaced hw (by simp [hpc]) rfl rfl rfl
  | ran qid op w th command hw hready hpoll hthread =>
    refine h.replaced hw ?_ rfl rfl rfl
    cases hthread <;> simp [*]
  | completed i hi => exact ⟨h.spawning, h.spawned, h.joined, h.report⟩

/-- What holds of the threads after any steps. -/
structure ProcInv (p : BenchParam) (s : BenchProc) : Prop where
  workers : ∀ w ∈ s.workers, WorkerOk p w
  ends : EndInv p s
  created : s.report = .notCreated → (∃ n, s.main = .spawn n) ∨ s.main = .spawnReport

lemma procInv_procInit (p : BenchParam) (mem : PopMem) : ProcInv p (procInit mem) :=
  ⟨by simp [procInit], endInv_procInit p mem, fun _ => .inl ⟨0, rfl⟩⟩

lemma procInv_move (h : ProcInv p s) (hmove : ProcMove p addr s op t) : ProcInv p t := by
  refine ⟨workersOk_move h.workers hmove, endInv_move h.ends h.workers hmove, ?_⟩
  cases hmove with
  | spawned n hmain hn => exact fun _ => .inl ⟨n + 1, rfl⟩
  | main t hmain =>
    cases hmain with
    | spawnedAll => exact fun _ => .inr rfl
    | spawnedReport => exact nofun
    | slept hmain | joined n w hmain | joinedAll n hmain | joinedReport hmain | closed hmain =>
      intro hnone
      have hearly := h.created hnone
      simp [hmain] at hearly
  | reported pc printed hcreated hlive hpc => exact fun hnone => absurd hnone hpc
  | signalled | noBuffer | allocated | ready | ran | completed => exact h.created

/-- All threads have ended when `main` closes the device. -/
lemma EndInv.all_done (h : EndInv p s) (hclose : s.main = .close ∨ s.main = .exit) {w : Worker}
    (hw : w ∈ s.workers) : w.th.pc = .done := by
  have hlen : s.workers.length = p.ncpus := h.spawned (by rcases hclose with he | he <;> simp [he])
  have hcount : joinedCount p s.main = p.ncpus := by rcases hclose with he | he <;> rw [he] <;> rfl
  obtain ⟨k, hk⟩ := List.mem_iff_getElem?.mp hw
  have hlt := (List.getElem?_eq_some_iff.mp hk).1
  obtain ⟨v, hv, hdone⟩ := h.joined k (by omega)
  rw [hk, Option.some.injEq] at hv
  exact hv ▸ hdone

end End

/-! ### The buffers of the threads -/

/-- Who owns the allocations of the context, by thread and place: each buffer of a thread is one of
them, and no two are the same. -/
structure BufferLog (p : BenchParam) (workers : List Worker)
    (log : List ((Nat × Nat) × Allocation)) : Prop where
  owners : (log.map Prod.fst).Nodup
  taken : ∀ e ∈ log, ∃ w, workers[e.1.1]? = some w ∧ e.1.2 < w.bufs.length
  bufs : ∀ (n k : Nat) (w : Worker) (pbuf : Pbuf), workers[n]? = some w → w.bufs[k]? = some pbuf →
    ∃ a, ((n, k), a) ∈ log ∧ a.request = p.iosize ∧ popBufData pbuf = a.pbuf.vaddr

def BuffersInv (p : BenchParam) (mem : PopMem) (s : BenchProc) : Prop :=
  ∃ b log, Reaches bufStep (bufInit mem) b ∧ b.mem = s.mem ∧ b.allocations = log.map Prod.snd ∧
    BufferLog p s.workers log

section Buffers

variable {p : BenchParam} {workers : List Worker} {log : List ((Nat × Nat) × Allocation)}
  {qid : Nat} {w : Worker}

lemma BufferLog.spawned (h : BufferLog p workers log) (th : BenchThread) :
    BufferLog p (workers ++ [⟨[], false, th⟩]) log := by
  refine ⟨h.owners, ?_, ?_⟩
  · intro e he
    obtain ⟨w, hw, hlt⟩ := h.taken e he
    refine ⟨w, ?_, hlt⟩
    rw [List.getElem?_append_left (List.getElem?_eq_some_iff.mp hw).1, hw]
  · intro n k w pbuf hw hbuf
    rcases Table.getElem?_concat_cases hw with hw | ⟨-, rfl⟩
    · exact h.bufs n k w pbuf hw hbuf
    · simp at hbuf

/-- A thread that keeps its buffers. -/
lemma BufferLog.kept (h : BufferLog p workers log) (hw : workers[qid]? = some w) {w' : Worker}
    (hbufs : w'.bufs = w.bufs) : BufferLog p (workers.set qid w') log := by
  refine ⟨h.owners, ?_, ?_⟩
  · intro e he
    obtain ⟨v, hv, hlt⟩ := h.taken e he
    by_cases hq : qid = e.1.1
    · rw [← hq, hw, Option.some.injEq] at hv
      subst hv
      exact ⟨w', hq ▸ Table.getElem?_set_self_of_some hw w', hbufs ▸ hlt⟩
    · exact ⟨v, (List.getElem?_set_ne hq).trans hv, hlt⟩
  · intro n k v pbuf hv hbuf
    rcases Table.getElem?_set_cases hv with ⟨rfl, rfl⟩ | ⟨-, hold⟩
    · exact h.bufs n k w pbuf hw (hbufs ▸ hbuf)
    · exact h.bufs n k v pbuf hold hbuf

/-- A thread gets another buffer. -/
lemma BufferLog.allocated (h : BufferLog p workers log) (hw : workers[qid]? = some w) {pbuf : Pbuf}
    {a : Allocation} (hrequest : a.request = p.iosize) (hdata : popBufData pbuf = a.pbuf.vaddr) :
    BufferLog p (workers.set qid { w with bufs := w.bufs ++ [pbuf] })
      (log ++ [((qid, w.bufs.length), a)]) := by
  refine ⟨?_, ?_, ?_⟩
  · rw [List.map_append, List.map_singleton, ← List.concat_eq_append]
    refine List.Nodup.concat ?_ h.owners
    intro hin
    obtain ⟨e, he, hkey⟩ := List.mem_map.mp hin
    obtain ⟨v, hv, hlt⟩ := h.taken e he
    rw [hkey, hw, Option.some.injEq] at hv
    rw [hkey, ← hv] at hlt
    exact absurd hlt (lt_irrefl _)
  · intro e he
    rcases List.mem_append.mp he with he | he
    · obtain ⟨v, hv, hlt⟩ := h.taken e he
      by_cases hq : qid = e.1.1
      · rw [← hq, hw, Option.some.injEq] at hv
        subst hv
        refine ⟨{ w with bufs := w.bufs ++ [pbuf] }, ?_, ?_⟩
        · rw [← hq]
          exact Table.getElem?_set_self_of_some hw _
        · rw [List.length_append]
          omega
      · exact ⟨v, (List.getElem?_set_ne hq).trans hv, hlt⟩
    · rw [List.mem_singleton.mp he]
      refine ⟨_, Table.getElem?_set_self_of_some hw _, ?_⟩
      simp
  · intro n k v pbuf' hv hbuf
    rcases Table.getElem?_set_cases hv with ⟨rfl, rfl⟩ | ⟨-, hold⟩
    · rcases Table.getElem?_concat_cases hbuf with hold | ⟨rfl, rfl⟩
      · obtain ⟨a', ha, hrest⟩ := h.bufs n k w pbuf' hw hold
        exact ⟨a', List.mem_append_left _ ha, hrest⟩
      · exact ⟨a, List.mem_append_right _ (List.mem_singleton_self _), hrequest, hdata⟩
    · obtain ⟨a', ha, hrest⟩ := h.bufs n k v pbuf' hold hbuf
      exact ⟨a', List.mem_append_left _ ha, hrest⟩

lemma popBufAllocPut_ok {addr size : BitVec 64} {mem mem' : PopMem} {malloc : Bool} {pbuf : Pbuf}
    (h : popBufAllocPut addr mem size malloc = some (mem', .ok pbuf)) :
    ∃ carved, popBufAlloc mem size malloc = some (mem', .ok carved) ∧
      popBufData pbuf = carved.vaddr := by
  unfold popBufAllocPut at h
  split at h
  · cases h
  · cases h
  · rename_i mem'' carved halloc
    cases h
    refine ⟨carved, halloc, ?_⟩
    have hoffset : carved.offset = 0 := by
      cases popBufAlloc_exit halloc
      rfl
    unfold popBufPut popBufData
    split <;> simp [hoffset]

end Buffers

lemma buffersInv_move {p : BenchParam} {addr : BitVec 64} {mem : PopMem} {s t : BenchProc}
    {op : ProcOp} (h : BuffersInv p mem s) (hmove : ProcMove p addr s op t) :
    BuffersInv p mem t := by
  obtain ⟨b, log, hreach, hmem, hallocs, hlog⟩ := h
  cases hmove with
  | spawned n hmain hn => exact ⟨b, log, hreach, hmem, hallocs, hlog.spawned _⟩
  | main t hmain =>
    refine ⟨b, log, hreach, ?_⟩
    cases hmain <;> exact ⟨hmem, hallocs, hlog⟩
  | allocated qid malloc w mem' pbuf hw hready hlt halloc =>
    obtain ⟨carved, hcarved, hdata⟩ := popBufAllocPut_ok halloc
    have hstep : bufStep b (.alloc p.iosize malloc) = some
        ⟨mem', b.allocations ++ [⟨p.iosize, carved⟩], b.live ++ [b.allocations.length]⟩ := by
      simp only [bufStep, hmem, hcarved]
    refine ⟨_, log ++ [((qid, w.bufs.length), ⟨p.iosize, carved⟩)], hreach.trans (.of_step hstep),
      rfl, ?_, hlog.allocated hw rfl hdata⟩
    simp [hallocs]
  | ready qid malloc w hw hready hge => exact ⟨b, log, hreach, hmem, hallocs, hlog.kept hw rfl⟩
  | ran qid op w th command hw hready hpoll hthread =>
    exact ⟨b, log, hreach, hmem, hallocs, hlog.kept hw rfl⟩
  | signalled => exact ⟨b, log, hreach, hmem, hallocs, hlog⟩
  | reported pc printed => exact ⟨b, log, hreach, hmem, hallocs, hlog⟩
  | noBuffer qid malloc => exact ⟨b, log, hreach, hmem, hallocs, hlog⟩
  | completed i hi => exact ⟨b, log, hreach, hmem, hallocs, hlog⟩

/-! ### Safety -/

def transferBytes (t : Transfer) : Set Nat :=
  Set.Ico t.addr.toNat (t.addr.toNat + t.len)

/-- What the device does to the memory is safe: it works inside the region, never on one byte for
two commands, and on nothing at all once `main` has begun to close. -/
structure TransfersSafe (mem : PopMem) (s : BenchProc) : Prop where
  inside : ∀ t ∈ s.inFlight, transferBytes t ⊆ regionBytes mem
  apart : s.inFlight.Pairwise fun t t' => Disjoint (transferBytes t) (transferBytes t')
  closed : s.main = .close ∨ s.main = .exit →
    s.inFlight = [] ∧ (∀ w ∈ s.workers, w.th.pc = .done) ∧ s.report = .done

lemma nblocks_mul_le (p : BenchParam) (hshift : p.blockshift ≤ 32) :
    p.nblocks * p.blocksize ≤ p.size + 2 ^ 32 := by
  have hpow : 2 ^ p.blockshift ≤ 2 ^ 32 := Nat.pow_le_pow_right (by decide) hshift
  have hdiv := Nat.div_add_mod p.size (2 ^ p.blockshift)
  unfold BenchParam.nblocks BenchParam.blocksize
  rw [Nat.shiftRight_eq_div_pow]
  split
  · rw [Nat.add_mul, Nat.one_mul, Nat.mul_comm]
    omega
  · rw [Nat.mul_comm]
    omega

lemma toNat_iosize (p : BenchParam) (hshift : p.blockshift ≤ 32) :
    p.iosize.toNat = p.nblocks * p.blocksize := by
  have hsize := p.size_lt
  have hle := nblocks_mul_le p hshift
  unfold BenchParam.blocksize at hle
  unfold BenchParam.iosize BenchParam.blocksize
  rw [Word.toNat_shiftLeft_mul, toNat_nblocks]
  exact Nat.mod_eq_of_lt (by omega)

section Safety

variable {p : BenchParam} {mem : PopMem} {s : BenchProc} (hshift : p.blockshift ≤ 32)
  (h0 : mem.allocedPages = 0) (hv : mem.mem.toNat + mem.numPages.toNat * 4096 < 2 ^ 64)
  (hp : mem.paddr.toNat + mem.numPages.toNat * 4096 < 2 ^ 64)

include hshift h0 hv hp

lemma transfersSafe_of_inv (hflight : FlightInv p s.workers s.inFlight) (hend : EndInv p s)
    (hbuffers : BuffersInv p mem s) : TransfersSafe mem s := by
  obtain ⟨b, log, ⟨ops, hops⟩, -, hallocs, hlog⟩ := hbuffers
  have hcarve := carveInv_reachable hv hp h0 hops
  have hdisjoint : log.Pairwise fun e e' => Disjoint (bufBytes e.2.pbuf) (bufBytes e'.2.pbuf) := by
    have hpairs := hcarve.disjoint
    rwa [hallocs, List.pairwise_map] at hpairs
  have hinside : ∀ t ∈ s.inFlight, ∃ a, ((t.qid, t.b), a) ∈ log ∧
      transferBytes t ⊆ bufBytes a.pbuf := by
    intro t ht
    obtain ⟨w, pbuf, hw, hbuf, haddr, hlen, -⟩ := hflight.flights t ht
    obtain ⟨a, ha, hrequest, hdata⟩ := hlog.bufs t.qid t.b w pbuf hw hbuf
    refine ⟨a, ha, ?_⟩
    have hmem : a ∈ b.allocations := hallocs ▸ List.mem_map_of_mem ha
    have hsize := (hcarve.carved a hmem).size
    unfold requestPages at hsize
    rw [hrequest, toNat_iosize p hshift, ← hlen] at hsize
    unfold transferBytes bufBytes
    rw [haddr, hdata]
    exact Set.Ico_subset_Ico le_rfl (by omega)
  refine ⟨?_, ?_, ?_⟩
  · intro t ht
    obtain ⟨a, ha, hsub⟩ := hinside t ht
    exact hsub.trans (hcarve.inside (hallocs ▸ List.mem_map_of_mem ha))
  · apply (List.pairwise_map.mp hflight.keys).imp_of_mem
    intro t t' ht ht' hne
    obtain ⟨a, ha, hsub⟩ := hinside t ht
    obtain ⟨a', ha', hsub'⟩ := hinside t' ht'
    refine Set.disjoint_of_subset hsub hsub' ?_
    have hentries : (((t.qid, t.b), a) : (Nat × Nat) × Allocation) ≠ ((t'.qid, t'.b), a') :=
      fun he => hne (congrArg Prod.fst he)
    have hsymm : Std.Symm fun e e' : (Nat × Nat) × Allocation =>
        Disjoint (bufBytes e.2.pbuf) (bufBytes e'.2.pbuf) :=
      ⟨fun _ _ h => h.symm⟩
    exact hdisjoint.forall ha ha' hentries
  · intro hclose
    refine ⟨?_, fun w hw => hend.all_done hclose hw, hend.report hclose⟩
    rw [List.eq_nil_iff_forall_not_mem]
    intro t ht
    obtain ⟨w, pbuf, hw, -, -, -, hwindow⟩ := hflight.flights t ht
    rw [hend.all_done hclose (List.mem_of_getElem? hw)] at hwindow
    exact hwindow

end Safety

/-- Along every run in which no poll times out, the transfers are safe. -/
theorem bench_transfers_safe (p : BenchParam) (hshift : p.blockshift ≤ 32) (addr : BitVec 64)
    (time : Int) {mem : PopMem} (h0 : mem.allocedPages = 0)
    (hv : mem.mem.toNat + mem.numPages.toNat * 4096 < 2 ^ 64)
    (hp : mem.paddr.toNat + mem.numPages.toNat * 4096 < 2 ^ 64) {ops : List ProcOp}
    (hg : Guarded (procStep p addr time) PollsInTime (procInit mem) ops) :
    Throughout (procStep p addr time) (TransfersSafe mem) (procInit mem) ops := by
  have hstep (s : BenchProc) (op : ProcOp) (t : BenchProc)
      (h : ProcInv p s ∧ FlightInv p s.workers s.inFlight ∧ BuffersInv p mem s) (hop : PollsInTime s op)
      (hs : procStep p addr time s op = some t) :
      ProcInv p t ∧ FlightInv p t.workers t.inFlight ∧ BuffersInv p mem t := by
    obtain ⟨hinv, hflight, hbuffers⟩ := h
    have hmove := procStep_move hs
    exact ⟨procInv_move hinv hmove, flightInv_move hflight hinv.workers hop hmove,
      buffersInv_move hbuffers hmove⟩
  have hbuffers : BuffersInv p mem (procInit mem) :=
    ⟨bufInit mem, [], .refl _, rfl, rfl, List.nodup_nil, by simp, by simp [procInit]⟩
  refine throughout_of_guarded ?_ hstep ⟨procInv_procInit p mem, flightInv_procInit p mem, hbuffers⟩
    hg
  rintro s ⟨hinv, hflight, hbuffers⟩
  exact transfersSafe_of_inv hshift h0 hv hp hflight hinv.ends hbuffers

/-- A context of 16 pages. -/
def benchMem : PopMem :=
  ⟨-1, [], ⟨0, 0, 0, 0, 0⟩, 0x7f0000000000, 0x80000000, 0x10000, 16, 0⟩

/-- Two threads write two buffers each, and the process ends. -/
def twoWritersRun : List ProcOp :=
  [.main, .main, .main, .main, .alloc 0 true, .alloc 1 true, .alloc 0 true, .alloc 1 true, .alloc 0 true,
    .alloc 1 true, .run 0 .loop, .run 1 .loop, .run 0 (.issue 0), .run 1 (.issue 0),
    .run 0 (.issue 0), .run 1 (.issue 0), .complete 3, .complete 0, .complete 1, .run 0 (.poll 0),
    .run 0 (.poll 0), .complete 0, .run 1 (.poll 0), .run 1 (.poll 0), .main, .run 0 .loop,
    .run 1 .loop, .report, .main, .main, .main, .main, .main]

theorem bench_transfers_safe_two :
    (exec (procStep twoWriters 0x1000 1) (procInit benchMem) twoWritersRun).map
        (fun s => (s.main, s.commands.length, s.workers.map fun w => (w.th.count, w.th.bytes))) =
      some (.exit, 4, [(2, 16384), (2, 16384)]) ∧
    Throughout (procStep twoWriters 0x1000 1) (TransfersSafe benchMem) (procInit benchMem) twoWritersRun :=
  ⟨by decide +kernel, bench_transfers_safe twoWriters (by decide) 0x1000 1 rfl (by decide) (by decide)
    (by decide +kernel)⟩

end Libpop.Proofs

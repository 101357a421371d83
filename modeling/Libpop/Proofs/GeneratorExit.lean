import Libpop.Execution
import Libpop.GeneratorMain
import Libpop.Proofs.GeneratorWire
import Libpop.Table

/-!
# How generator ends

The loop behind the label `close` joins a thread and closes a port for every entry below `n`. When
all ports could be opened, these are the threads that were created, and they have ended. When one
could not, no thread was created yet, and the loop joins as many entries as ports were opened.
-/

namespace Libpop.Proofs
open Execution Generator

/-- A thread that has left its loop does not come back. -/
lemma workerNext_ended {conf : ProcConf} {n : Nat} {signal : Bool} {w w' : GenTx} {op : WorkerOp}
    (h : workerNext conf n signal w op = some w') (hend : w.thread.running = false) :
    w'.thread.running = false := by
  cases op with
  | leave =>
    simp only [workerNext] at h
    split at h
    · cases h
      rfl
    · cases h
  | step op =>
    cases op with
    | transmit =>
      simp only [workerNext, genTxStep] at h
      split at h
      · cases h
        exact hend
      · cases h
    | iterate rand poll sync =>
      simp only [workerNext, genTxStep] at h
      split at h
      · cases h
      · have hstop : threadBody conf.param (conf.buffers n) conf.disk w.thread
            (genEnv w.thread.ring rand poll sync) = none := by
          unfold threadBody
          rw [if_pos hend]
        rw [hstop] at h
        cases h

/-- Every port could be opened and has its thread, and the count thread has been joined. The first
`i` threads have ended and were joined. -/
structure AllOpened (conf : ProcConf) (s : GenProc) (i : Nat) : Prop where
  failed : s.failed = none
  opened : s.opened = conf.param.ncpus
  created : s.workers.length = s.opened
  counted : s.count = .ended
  countJoined : s.countJoined = true
  joined : s.joined = List.range i
  strayJoins : s.strayJoins = []
  ended : ∀ j < i, ∀ w, s.workers[j]? = some w → w.thread.running = false

/-- A port could not be opened, so that no thread was created. The first `i` entries were joined
nevertheless. -/
structure OpenFailed (conf : ProcConf) (s : GenProc) (i : Nat) : Prop where
  failed : s.failed = some s.opened
  opened : s.opened < conf.param.ncpus
  workers : s.workers = []
  count : s.count = .notCreated
  countJoined : s.countJoined = false
  joined : s.joined = []
  strayJoins : s.strayJoins = List.range i

/-- The loop behind `close` has joined `joined` entries and closed `closed` ports, of the `n` that
were opened. -/
structure Leaving (conf : ProcConf) (s : GenProc) (joined closed n : Nat) : Prop where
  closed : s.closed = List.range closed
  joined_le : joined ≤ n
  opened : s.opened = n
  way : AllOpened conf s joined ∨ OpenFailed conf s joined

/-- Nothing has been joined or closed, and every port so far could be opened. -/
structure Starting (s : GenProc) (opened created : Nat) : Prop where
  opened : s.opened = opened
  created : s.workers.length = created
  failed : s.failed = none
  closed : s.closed = []
  joined : s.joined = []
  strayJoins : s.strayJoins = []
  countJoined : s.countJoined = false

def ProcPcInv (conf : ProcConf) (s : GenProc) : Prop :=
  match s.main with
  | .open n => Starting s n 0 ∧ s.count = .notCreated ∧ n ≤ conf.param.ncpus
  | .spawn n => Starting s conf.param.ncpus n ∧ s.count = .notCreated ∧ n ≤ conf.param.ncpus
  | .spawnCount => Starting s conf.param.ncpus conf.param.ncpus ∧ s.count = .notCreated
  | .sleep => Starting s conf.param.ncpus conf.param.ncpus
  | .joinCount => Starting s conf.param.ncpus conf.param.ncpus
  | .join i n => Leaving conf s i i n
  | .nmClose i n => Leaving conf s (i + 1) i n
  | .exit => ∃ n, Leaving conf s n n n

section Steps

variable {conf : ProcConf} {s t : GenProc}

lemma Starting.leaving (h : Starting s conf.param.ncpus conf.param.ncpus)
    (hcount : s.count = .ended) :
    Leaving conf { s with main := .join 0 conf.param.ncpus, countJoined := true } 0 0
      conf.param.ncpus :=
  ⟨h.closed, Nat.zero_le _, h.opened, .inl
    { failed := h.failed
      opened := h.opened
      created := h.created.trans h.opened.symm
      counted := hcount
      countJoined := rfl
      joined := h.joined
      strayJoins := h.strayJoins
      ended := nofun }⟩

/-- A port that cannot be opened is followed by the loop behind `close` at once. -/
lemma Starting.openFailed {n : Nat} (h : Starting s n 0) (hcount : s.count = .notCreated)
    (hlt : n < conf.param.ncpus) :
    Leaving conf { s with main := .join 0 n, caughtSignal := true, failed := some n } 0 0 n :=
  ⟨h.closed, Nat.zero_le _, h.opened, .inr
    { failed := congrArg some h.opened.symm
      opened := h.opened.trans_lt hlt
      workers := List.eq_nil_of_length_eq_zero h.created
      count := hcount
      countJoined := h.countJoined
      joined := h.joined
      strayJoins := h.strayJoins }⟩

/-- An entry without a thread is joined. -/
lemma Leaving.stray {i n : Nat} (h : Leaving conf s i i n) (hi : i < n)
    (hnone : s.workers[i]? = none) :
    Leaving conf { s with main := .nmClose i n, strayJoins := s.strayJoins ++ [i] } (i + 1) i n := by
  obtain ⟨hclosed, -, hopened, hall | hfailed⟩ := h
  · rw [List.getElem?_eq_none_iff, hall.created] at hnone
    omega
  · refine ⟨hclosed, hi, hopened, .inr { hfailed with strayJoins := ?_ }⟩
    dsimp only
    rw [hfailed.strayJoins, List.range_succ]

/-- A thread that has ended is joined. -/
lemma Leaving.joined {i n : Nat} {w : GenTx} (h : Leaving conf s i i n) (hi : i < n)
    (hw : s.workers[i]? = some w) (hend : w.thread.running = false) :
    Leaving conf { s with main := .nmClose i n, joined := s.joined ++ [i] } (i + 1) i n := by
  obtain ⟨hclosed, -, hopened, hall | hfailed⟩ := h
  · refine ⟨hclosed, hi, hopened, .inl { hall with joined := ?_, ended := ?_ }⟩
    · dsimp only
      rw [hall.joined, List.range_succ]
    · intro j hj v hv
      rcases Nat.lt_succ_iff_lt_or_eq.mp hj with hlt | rfl
      · exact hall.ended j hlt v hv
      · rw [hw, Option.some.injEq] at hv
        exact hv ▸ hend
  · rw [hfailed.workers] at hw
    cases hw

lemma Leaving.portClosed {i n : Nat} (h : Leaving conf s (i + 1) i n) :
    Leaving conf { s with main := .join (i + 1) n, closed := s.closed ++ [i] } (i + 1) (i + 1) n := by
  have hclosed : s.closed ++ [i] = List.range (i + 1) := by
    rw [h.closed, List.range_succ]
  obtain ⟨-, hle, hopened, hall | hfailed⟩ := h
  · exact ⟨hclosed, hle, hopened, .inl { hall with }⟩
  · exact ⟨hclosed, hle, hopened, .inr { hfailed with }⟩

lemma Leaving.exit {n : Nat} (h : Leaving conf s n n n) :
    Leaving conf { s with main := .exit } n n n := by
  obtain ⟨hclosed, hle, hopened, hall | hfailed⟩ := h
  · exact ⟨hclosed, hle, hopened, .inl { hall with }⟩
  · exact ⟨hclosed, hle, hopened, .inr { hfailed with }⟩

lemma procPcInv_main {ok : Bool} (h : ProcPcInv conf s) (hs : mainStep conf ok s = some t) :
    ProcPcInv conf t := by
  unfold mainStep at hs
  unfold ProcPcInv at h
  split at hs
  · rename_i n hpc
    rw [hpc] at h
    obtain ⟨hstart, hcount, hle⟩ := h
    split at hs
    · rename_i hlt
      split at hs
      · cases hs
        exact ⟨{ hstart with opened := congrArg (· + 1) hstart.opened }, hcount, hlt⟩
      · cases hs
        exact hstart.openFailed hcount hlt
    · rename_i hge
      cases hs
      have hall : n = conf.param.ncpus := by omega
      exact ⟨{ hstart with opened := hall ▸ hstart.opened }, hcount, Nat.zero_le _⟩
  · rename_i n hpc
    rw [hpc] at h
    obtain ⟨hstart, hcount, hle⟩ := h
    split at hs
    · rename_i hlt
      cases hs
      refine ⟨{ hstart with created := ?_ }, hcount, hlt⟩
      rw [List.length_append, hstart.created, List.length_singleton]
    · rename_i hge
      cases hs
      have hall : n = conf.param.ncpus := by omega
      exact ⟨{ hstart with created := hall ▸ hstart.created }, hcount⟩
  · rename_i hpc
    rw [hpc] at h
    cases hs
    unfold ProcPcInv
    dsimp only
    by_cases htime : conf.timeout = 0
    · rw [if_neg (not_not.mpr htime)]
      exact { h.1 with }
    · rw [if_pos htime]
      exact { h.1 with }
  · rename_i hpc
    rw [hpc] at h
    cases hs
    exact { h with }
  · rename_i hpc
    rw [hpc] at h
    split at hs
    · rename_i hcount
      cases hs
      exact Starting.leaving h hcount
    · cases hs
  · rename_i i n hpc
    rw [hpc] at h
    split at hs
    · rename_i hi
      split at hs
      · rename_i hnone
        cases hs
        exact Leaving.stray h hi hnone
      · rename_i w hw
        split at hs
        · rename_i hend
          cases hs
          exact Leaving.joined h hi hw hend
        · cases hs
    · cases hs
      have hall : i = n := by
        have hle := h.joined_le
        omega
      subst hall
      exact ⟨i, Leaving.exit h⟩
  · rename_i i n hpc
    rw [hpc] at h
    cases hs
    exact Leaving.portClosed h
  · cases hs

/-- The threads may have moved on, and `main` has not. -/
structure SameMain (s t : GenProc) : Prop where
  main : t.main = s.main
  opened : t.opened = s.opened
  failed : t.failed = s.failed
  closed : t.closed = s.closed
  joined : t.joined = s.joined
  strayJoins : t.strayJoins = s.strayJoins
  countJoined : t.countJoined = s.countJoined
  length : t.workers.length = s.workers.length
  ended : ∀ (j : Nat) (w : GenTx), t.workers[j]? = some w →
    ∃ v, s.workers[j]? = some v ∧ (v.thread.running = false → w.thread.running = false)

lemma Starting.move {opened created : Nat} (h : Starting s opened created) (hsame : SameMain s t) :
    Starting t opened created where
  opened := hsame.opened.trans h.opened
  created := hsame.length.trans h.created
  failed := hsame.failed.trans h.failed
  closed := hsame.closed.trans h.closed
  joined := hsame.joined.trans h.joined
  strayJoins := hsame.strayJoins.trans h.strayJoins
  countJoined := hsame.countJoined.trans h.countJoined

lemma AllOpened.move {i : Nat} (h : AllOpened conf s i) (hsame : SameMain s t)
    (hcount : t.count = s.count) : AllOpened conf t i where
  failed := hsame.failed.trans h.failed
  opened := hsame.opened.trans h.opened
  created := hsame.length.trans (h.created.trans hsame.opened.symm)
  counted := hcount.trans h.counted
  countJoined := hsame.countJoined.trans h.countJoined
  joined := hsame.joined.trans h.joined
  strayJoins := hsame.strayJoins.trans h.strayJoins
  ended := by
    intro j hj w hw
    obtain ⟨v, hv, hkeep⟩ := hsame.ended j w hw
    exact hkeep (h.ended j hj v hv)

lemma OpenFailed.move {i : Nat} (h : OpenFailed conf s i) (hsame : SameMain s t)
    (hcount : t.count = s.count) : OpenFailed conf t i where
  failed := by rw [hsame.failed, hsame.opened, h.failed]
  opened := hsame.opened.trans_lt h.opened
  workers := List.eq_nil_of_length_eq_zero (hsame.length.trans (congrArg List.length h.workers))
  count := hcount.trans h.count
  countJoined := hsame.countJoined.trans h.countJoined
  joined := hsame.joined.trans h.joined
  strayJoins := hsame.strayJoins.trans h.strayJoins

lemma Leaving.move {joined closed n : Nat} (h : Leaving conf s joined closed n)
    (hsame : SameMain s t) (hcount : t.count = s.count) : Leaving conf t joined closed n where
  closed := hsame.closed.trans h.closed
  joined_le := h.joined_le
  opened := hsame.opened.trans h.opened
  way := h.way.imp (·.move hsame hcount) (·.move hsame hcount)

lemma ProcPcInv.move (h : ProcPcInv conf s) (hsame : SameMain s t) (hcount : t.count = s.count) :
    ProcPcInv conf t := by
  unfold ProcPcInv at h ⊢
  rw [hsame.main]
  split at h
  · exact ⟨h.1.move hsame, hcount.trans h.2.1, h.2.2⟩
  · exact ⟨h.1.move hsame, hcount.trans h.2.1, h.2.2⟩
  · exact ⟨h.1.move hsame, hcount.trans h.2⟩
  · exact h.move hsame
  · exact h.move hsame
  · exact h.move hsame hcount
  · exact h.move hsame hcount
  · obtain ⟨n, hn⟩ := h
    exact ⟨n, hn.move hsame hcount⟩

/-- While the count thread runs, `main` sleeps or waits for it. -/
lemma procPcInv_count (h : ProcPcInv conf s) (hrun : s.count = .running) (c : CountState) :
    ProcPcInv conf { s with count := c } := by
  have hleaving {joined closed n : Nat} (hl : Leaving conf s joined closed n) : False := by
    rcases hl.way with hall | hfailed
    · exact absurd (hrun.symm.trans hall.counted) (by decide)
    · exact absurd (hrun.symm.trans hfailed.count) (by decide)
  have hstarting (hcount : s.count = .notCreated) : False := by
    rw [hrun] at hcount
    cases hcount
  unfold ProcPcInv at h ⊢
  dsimp only
  split at h
  · exact (hstarting h.2.1).elim
  · exact (hstarting h.2.1).elim
  · exact (hstarting h.2).elim
  · exact { h with }
  · exact { h with }
  · exact (hleaving h).elim
  · exact (hleaving h).elim
  · obtain ⟨n, hn⟩ := h
    exact (hleaving hn).elim

lemma procPcInv_step (s : GenProc) (op : ProcOp) (t : GenProc) (h : ProcPcInv conf s)
    (hs : procStep conf s op = some t) : ProcPcInv conf t := by
  cases op with
  | signal =>
    cases hs
    exact h.move ⟨rfl, rfl, rfl, rfl, rfl, rfl, rfl, rfl, fun j w hw => ⟨w, hw, id⟩⟩ rfl
  | main ok => exact procPcInv_main h hs
  | count =>
    simp only [procStep, countStep] at hs
    split at hs
    · rename_i hrun
      cases hs
      exact procPcInv_count h hrun _
    · cases hs
  | worker n op =>
    simp only [procStep] at hs
    split at hs
    · cases hs
    · rename_i w hw
      split at hs
      · cases hs
      · rename_i w' hnext
        cases hs
        refine h.move ⟨rfl, rfl, rfl, rfl, rfl, rfl, rfl, List.length_set, ?_⟩ rfl
        intro j v hv
        rcases Table.getElem?_set_cases hv with ⟨rfl, rfl⟩ | ⟨-, hold⟩
        · exact ⟨w, hw, workerNext_ended hnext⟩
        · exact ⟨v, hold, id⟩

end Steps

/-- In every interleaving, when `main` goes on to close the device and to give the memory back, one
of two things has happened. All ports could be opened: there is a thread for each, and these and the
count thread have ended and were joined. Or port `n` could not be opened: there has been no thread,
and `pthread_join` was called for the `n` entries before it, which have none. The ports that were
opened have been closed in both cases. -/
theorem generator_exit_exact (conf : ProcConf) (ops : List ProcOp) :
    Throughout (procStep conf) (fun s => s.main = .exit →
      s.closed = List.range s.opened ∧
      ((s.failed = none ∧ s.opened = conf.param.ncpus ∧ s.workers.length = conf.param.ncpus ∧
          (∀ w ∈ s.workers, w.thread.running = false) ∧ s.joined = List.range conf.param.ncpus ∧
          s.strayJoins = [] ∧ s.count = .ended ∧ s.countJoined = true) ∨
        (s.failed = some s.opened ∧ s.opened < conf.param.ncpus ∧ s.workers = [] ∧
          s.joined = [] ∧ s.strayJoins = List.range s.opened ∧
          s.count = .notCreated ∧ s.countJoined = false))) procInit ops := by
  have hinit : ProcPcInv conf procInit :=
    ⟨⟨rfl, rfl, rfl, rfl, rfl, rfl, rfl⟩, rfl, Nat.zero_le _⟩
  have hguard : Guarded (procStep conf) (fun _ _ => True) procInit ops := guarded_true procInit ops
  refine throughout_of_guarded ?_ (fun s op t h _ hs => procPcInv_step s op t h hs) hinit hguard
  intro s h hpc
  unfold ProcPcInv at h
  rw [hpc] at h
  obtain ⟨n, hclosed, -, hopened, hway⟩ := h
  subst hopened
  refine ⟨hclosed, ?_⟩
  rcases hway with hall | hfailed
  · have hended : ∀ w ∈ s.workers, w.thread.running = false := by
      intro w hw
      obtain ⟨j, hj⟩ := List.mem_iff_getElem?.mp hw
      exact hall.ended j (hall.created ▸ (List.getElem?_eq_some_iff.mp hj).1) w hj
    exact .inl ⟨hall.failed, hall.opened, hall.created.trans hall.opened, hended,
      hall.opened ▸ hall.joined, hall.strayJoins, hall.counted, hall.countJoined⟩
  · exact .inr ⟨hfailed.failed, hfailed.opened, hfailed.workers, hfailed.joined,
      hfailed.strayJoins, hfailed.count, hfailed.countJoined⟩

/-- Two CPUs whose rings have eight slots. -/
def twoPorts : ProcConf where
  param := .ofOptions 2 2 2 .seq 0 0x40000 false 9 (by decide)
  timeout := 0
  disk := fun i => BitVec.ofNat 8 (i / 2048)
  buffers := fun _ => twoByTwoBuffers
  numSlots := fun _ => 8
  slot := fun _ _ => ⟨0, 0, 0⟩
  bufs := fun _ _ _ => 0

/-- Both ports are opened; the first thread queues four frames of which the NIC sends one before the
signal. -/
def interrupted : List ProcOp :=
  [.main true, .main true, .main true, .main true, .main true, .main true, .main true,
    .worker 0 (.step (.iterate (fun _ => 0) (fun _ => 0) (some (1, 1)))), .signal, .count,
    .worker 1 .leave, .worker 0 .leave, .main true, .main true, .main true, .main true, .main true,
    .main true]

theorem generator_exit_interrupted :
    (exec (procStep twoPorts) procInit interrupted).map (fun s =>
      (s.main, s.joined, s.closed, s.workers.map fun w => (w.asked.length, w.transmitted))) =
        some (.exit, [0, 1], [0, 1], [(4, 1), (0, 0)]) ∧
    Throughout (procStep twoPorts) (fun s => s.main = .exit →
      s.closed = List.range s.opened ∧
      ((s.failed = none ∧ s.opened = twoPorts.param.ncpus ∧
          s.workers.length = twoPorts.param.ncpus ∧
          (∀ w ∈ s.workers, w.thread.running = false) ∧ s.joined = List.range twoPorts.param.ncpus ∧
          s.strayJoins = [] ∧ s.count = .ended ∧ s.countJoined = true) ∨
        (s.failed = some s.opened ∧ s.opened < twoPorts.param.ncpus ∧ s.workers = [] ∧
          s.joined = [] ∧ s.strayJoins = List.range s.opened ∧
          s.count = .notCreated ∧ s.countJoined = false))) procInit interrupted :=
  ⟨by decide +kernel, generator_exit_exact twoPorts interrupted⟩

/-- The second port cannot be opened. -/
example : (exec (procStep twoPorts) procInit
    [.main true, .main false, .main true, .main true, .main true]).map
      (fun s => (s.main, s.joined, s.strayJoins)) = some (.exit, [], [0]) := by
  decide +kernel

end Libpop.Proofs

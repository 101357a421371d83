import Libpop.NmgenMain
import Libpop.Proofs.ReceivePath
import Libpop.Table

/-!
# The end of nmgen

`main` joins every worker before it gives the memory back, and a sender that was cancelled
leaves only when the NIC has nothing left to send. So the NIC holds no address of the memory when
it goes, unless a sender has given up on an error.
-/

namespace Libpop.Proofs
open Execution NmgenMain Nmgen

/-! ### Workers -/

/-- Each worker is in a loop that keeps its own invariant. -/
def WorkerInv (conf : MainConf) (n : Nat) : Worker → Prop
  | .starting => True
  | .sender s => SendInv (conf.send n) s
  | .receiver s => RecvInv (conf.rxring n) s

/-- Rings that netmap has just opened. -/
structure RingsOk (conf : MainConf) : Prop where
  tx : ∀ n, 0 < conf.numSlots n
  head : ∀ n, (conf.rxring n).head < (conf.rxring n).numSlots
  tail : ∀ n, (conf.rxring n).tail < (conf.rxring n).numSlots

section Workers

variable {conf : MainConf} {n : Nat} {cancel : Bool} {w w' : Worker} {op : WorkerOp}

lemma workerInv_setup (hrings : RingsOk conf) (n : Nat) (buffer : Bool) :
    WorkerInv conf n (NmgenMain.setup conf n buffer) := by
  unfold NmgenMain.setup
  cases conf.mode with
  | tx =>
    have hinit := sendInv_init (conf.send n) (hrings.tx n) (conf.slot n)
    cases buffer with
    | true => exact hinit
    | false => exact hinit.setThread rfl
  | rx => exact recvInv_init (hrings.head n) (hrings.tail n)

lemma workerInv_next (hrings : RingsOk conf) (h : WorkerInv conf n w)
    (hnext : workerNext conf n cancel w op = some w') : WorkerInv conf n w' := by
  unfold workerNext at hnext
  split at hnext
  · cases hnext
    exact workerInv_setup hrings n _
  · split at hnext
    · obtain ⟨t, ht, rfl⟩ := Option.map_eq_some_iff.mp hnext
      exact sendInv_step _ _ t h ht
    · cases hnext
  · split at hnext
    · obtain ⟨t, ht, rfl⟩ := Option.map_eq_some_iff.mp hnext
      exact recvInv_step _ _ t h ht
    · cases hnext
  · cases hnext

lemma sendStep_ended {c : SendConf} {s t : SendState} {op : SendOp}
    (hpc : s.thread.pc = .done ∨ s.thread.pc = .failed)
    (h : sendStep c s op = some t) : t.thread = s.thread := by
  cases op with
  | transmit =>
    simp only [sendStep] at h
    split at h <;> cases h
    rfl
  | sync reclaim => cases reclaim <;> rcases hpc with hpc | hpc <;> simp [sendStep, hpc] at h
  | slot | publish | leave | drain n => rcases hpc with hpc | hpc <;> simp [sendStep, hpc] at h

lemma recvStep_ended {s t : RecvState} {op : RecvOp} (hpc : s.pc = .done ∨ s.pc = .failed)
    (h : recvStep s op = some t) : t.pc = s.pc := by
  cases op with
  | receive len =>
    simp only [recvStep] at h
    split at h <;> cases h
    rfl
  | sync deliver => cases deliver <;> rcases hpc with hpc | hpc <;> simp [recvStep, hpc] at h
  | drain | leave => rcases hpc with hpc | hpc <;> simp [recvStep, hpc] at h

/-- A worker that has ended stays so; only the NIC goes on. -/
lemma ended_next (hended : w.ended = true) (hnext : workerNext conf n cancel w op = some w') :
    w'.ended = true := by
  unfold workerNext at hnext
  split at hnext
  · cases hended
  · split at hnext
    · obtain ⟨t, ht, rfl⟩ := Option.map_eq_some_iff.mp hnext
      have hpc := by simpa [Worker.ended] using hended
      simpa [Worker.ended, sendStep_ended hpc ht] using hended
    · cases hnext
  · split at hnext
    · obtain ⟨t, ht, rfl⟩ := Option.map_eq_some_iff.mp hnext
      have hpc := by simpa [Worker.ended] using hended
      simpa [Worker.ended, recvStep_ended hpc ht] using hended
    · cases hnext
  · cases hnext

end Workers

/-! ### The process -/

/-- The workers that `main` has joined. -/
def joinedWorkers (conf : MainConf) : MainPc → Nat
  | .join n => n
  | .exit => conf.ncpus.toNat
  | _ => 0

structure ExitInv (conf : MainConf) (s : NmgenProc) : Prop where
  spawning : ∀ n, s.main = .spawn n → s.workers.length = n ∧ n ≤ conf.ncpus.toNat
  spawned : (∀ n, s.main ≠ .spawn n) → s.workers.length = conf.ncpus.toNat
  joined : ∀ k < joinedWorkers conf s.main, ∃ w, s.workers[k]? = some w ∧ w.ended = true
  workers : ∀ n w, s.workers[n]? = some w → WorkerInv conf n w

section Process

variable {conf : MainConf} {s t : NmgenProc}

lemma exitInv_main (h : ExitInv conf s) (hstep : mainStep conf s = some t) : ExitInv conf t := by
  unfold mainStep at hstep
  split at hstep
  · rename_i n hmain
    obtain ⟨hlen, hle⟩ := h.spawning n hmain
    split at hstep
    · rename_i hn
      cases hstep
      refine ⟨?_, fun hno => absurd rfl (hno (n + 1)), nofun, ?_⟩
      · intro m hm
        cases hm
        rw [List.length_append, List.length_singleton, hlen]
        exact ⟨rfl, by omega⟩
      · intro k w hw
        rcases Table.getElem?_concat_cases hw with hold | ⟨-, rfl⟩
        · exact h.workers k w hold
        · trivial
    · rename_i hn
      cases hstep
      exact ⟨nofun, fun _ => hlen.trans (by omega), nofun, h.workers⟩
  · rename_i hmain
    have hlen := h.spawned (by simp [hmain])
    cases hstep
    refine ⟨?_, fun _ => hlen, ?_, h.workers⟩
    · intro n hn
      dsimp only at hn
      split at hn <;> cases hn
    · intro k hk
      dsimp only at hk
      split at hk <;> cases hk
  · rename_i hmain
    have hlen := h.spawned (by simp [hmain])
    cases hstep
    exact ⟨nofun, fun _ => hlen, nofun, h.workers⟩
  · rename_i hmain
    have hlen := h.spawned (by simp [hmain])
    split at hstep
    · cases hstep
      exact ⟨nofun, fun _ => hlen, nofun, h.workers⟩
    · cases hstep
  · rename_i n hmain
    have hlen := h.spawned (by simp [hmain])
    have hjoined := h.joined
    rw [hmain] at hjoined
    split at hstep
    · split at hstep
      · cases hstep
      · rename_i w hw
        split at hstep
        · rename_i hended
          cases hstep
          refine ⟨nofun, fun _ => hlen, ?_, h.workers⟩
          intro k hk
          rcases Nat.lt_succ_iff_lt_or_eq.mp hk with hbefore | rfl
          · exact hjoined k hbefore
          · exact ⟨w, hw, hended⟩
        · cases hstep
    · rename_i hn
      cases hstep
      refine ⟨nofun, fun _ => hlen, ?_, h.workers⟩
      intro k hk
      have hk' : k < conf.ncpus.toNat := hk
      exact hjoined k (by
        change k < n
        omega)
  · cases hstep

lemma exitInv_count (h : ExitInv conf s) (hstep : countStep conf s = some t) : ExitInv conf t := by
  have hkept : t.main = s.main ∧ t.workers = s.workers := by
    unfold countStep at hstep
    split at hstep
    · cases hstep
    · cases hstep
      exact ⟨rfl, rfl⟩
    · cases hstep
      exact ⟨rfl, rfl⟩
    · split at hstep <;> cases hstep <;> exact ⟨rfl, rfl⟩
    · cases hstep
  obtain ⟨hmain, hworkers⟩ := hkept
  refine ⟨?_, ?_, ?_, ?_⟩
  · rw [hmain, hworkers]
    exact h.spawning
  · rw [hmain, hworkers]
    exact h.spawned
  · rw [hmain, hworkers]
    exact h.joined
  · rw [hworkers]
    exact h.workers

lemma ExitInv.worker (hrings : RingsOk conf) (h : ExitInv conf s) {n : Nat} {w w' : Worker}
    {op : WorkerOp} (hw : s.workers[n]? = some w)
    (hnext : workerNext conf n (s.cancel n) w op = some w') :
    ExitInv conf { s with workers := s.workers.set n w' } := by
  refine ⟨?_, ?_, ?_, ?_⟩
  · dsimp only
    rw [List.length_set]
    exact h.spawning
  · dsimp only
    rw [List.length_set]
    exact h.spawned
  · intro k hk
    obtain ⟨v, hv, hended⟩ := h.joined k hk
    by_cases hkn : n = k
    · subst hkn
      rw [hw, Option.some.injEq] at hv
      subst hv
      exact ⟨w', Table.getElem?_set_self_of_some hw w', ended_next hended hnext⟩
    · exact ⟨v, (List.getElem?_set_ne hkn).trans hv, hended⟩
  · intro k v hv
    rcases Table.getElem?_set_cases hv with ⟨rfl, rfl⟩ | ⟨-, hold⟩
    · exact workerInv_next hrings (h.workers k w hw) hnext
    · exact h.workers k v hold

lemma exitInv_step (hrings : RingsOk conf) (s : NmgenProc) (op : NmgenOp) (t : NmgenProc)
    (h : ExitInv conf s) (hstep : nmgenStep conf s op = some t) : ExitInv conf t := by
  cases op with
  | signal =>
    cases hstep
    exact ⟨h.spawning, h.spawned, h.joined, h.workers⟩
  | main => exact exitInv_main h hstep
  | count => exact exitInv_count h hstep
  | worker n op =>
    simp only [nmgenStep] at hstep
    split at hstep
    · cases hstep
    · rename_i w hw
      split at hstep
      · cases hstep
      · rename_i w' hnext
        cases hstep
        exact h.worker hrings hw hnext

end Process

/-- When `main` goes on to `pop_mem_exit`, every worker has ended, and every sender that was cancelled
has had all its packets sent, as many as it has counted. -/
theorem nmgen_exit_drained (conf : MainConf) (hrings : RingsOk conf) {ops : List NmgenOp}
    {s : NmgenProc} (hrun : exec (nmgenStep conf) nmgenInit ops = some s) (hexit : s.main = .exit) :
    s.workers.length = conf.ncpus.toNat ∧ (∀ w ∈ s.workers, w.ended = true) ∧
      ∀ t, Worker.sender t ∈ s.workers → t.thread.pc ≠ .failed →
        t.transmitted = t.posted ∧ t.sent = t.written ∧
          t.npkts = BitVec.ofNat 64 t.sent.length := by
  have hinit : ExitInv conf nmgenInit := by
    refine ⟨?_, fun hno => absurd rfl (hno 0), nofun, by simp [nmgenInit]⟩
    intro n hn
    cases hn
    exact ⟨rfl, Nat.zero_le _⟩
  have hinv := exec_invariant (exitInv_step hrings) hinit hrun
  have hlen := hinv.spawned (by simp [hexit])
  have hended : ∀ w ∈ s.workers, w.ended = true := by
    intro w hw
    obtain ⟨k, hk⟩ := List.mem_iff_getElem?.mp hw
    have hlt := (List.getElem?_eq_some_iff.mp hk).1
    obtain ⟨v, hv, hend⟩ := hinv.joined k (by
      rw [hexit]
      change k < conf.ncpus.toNat
      omega)
    rw [hk, Option.some.injEq] at hv
    exact hv ▸ hend
  refine ⟨hlen, hended, ?_⟩
  intro t ht hfailed
  obtain ⟨k, hk⟩ := List.mem_iff_getElem?.mp ht
  have hpc : t.thread.pc = .done := by
    have hend := hended _ ht
    simp only [Worker.ended, Bool.or_eq_true, decide_eq_true_eq] at hend
    exact hend.resolve_right hfailed
  have hsend : SendInv (conf.send k) t := hinv.workers k _ hk
  obtain ⟨htransmitted, hsent, hposted⟩ := hsend.drained hpc
  exact ⟨htransmitted, hsent, by rw [hsend.npkts, hposted]⟩

/-- One sender with packets of 60 bytes and a ring of three slots. -/
def oneSender : MainConf :=
  ⟨.tx, 1, 0, fun _ => ⟨defaultParam 60 2 (by decide), 0x40, fun _ => 0x80000000⟩, fun _ => 3,
    fun _ _ => ⟨0, 0, 0⟩, fun _ => ⟨1, 0, 0, 0, fun _ => ⟨0, 0, 0⟩⟩⟩

/-- Two packets are handed over, one of them is sent after the signal. -/
def oneSenderRun : List NmgenOp :=
  [.main, .worker 0 (.setup true), .main, .main, .worker 0 (.send (.sync (some 0))), .worker 0 (.send .slot),
    .worker 0 (.send .slot), .worker 0 (.send .publish), .worker 0 (.send .transmit), .count,
    .signal, .count, .count, .count, .main, .worker 0 (.send .leave), .worker 0 (.send (.drain 1)),
    .worker 0 (.send .transmit), .worker 0 (.send (.drain 1)), .worker 0 (.send (.drain 0)), .main,
    .main]

theorem nmgen_exit_one :
    ∃ s, exec (nmgenStep oneSender) nmgenInit oneSenderRun = some s ∧ s.main = .exit ∧
    s.workers.length = 1 ∧ (∀ w ∈ s.workers, w.ended = true) ∧
      ∀ t, Worker.sender t ∈ s.workers → t.thread.pc ≠ .failed →
        t.transmitted = t.posted ∧ t.sent = t.written ∧
          t.npkts = BitVec.ofNat 64 t.sent.length := by
  have hrun : exec (nmgenStep oneSender) nmgenInit oneSenderRun = some _ := rfl
  have hrings : RingsOk oneSender :=
    ⟨fun _ => Nat.zero_lt_succ 2, fun _ => Nat.zero_lt_one, fun _ => Nat.zero_lt_one⟩
  exact ⟨_, hrun, rfl, nmgen_exit_drained oneSender hrings hrun rfl⟩

end Libpop.Proofs

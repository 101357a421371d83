import Libpop.Execution
import Libpop.NvgenMain

/-!
# The shutdown of nvgen

`main` joins one thread for each CPU: the one whose identifier is in `ths[n].tid` at the end. In
RX mode that is every thread. In TX mode the identifier of the netmap thread is overwritten by
that of the NVMe thread, so nobody waits for a netmap thread that is still draining the NIC.
-/

namespace Libpop.Proofs
open Execution NvgenMain

/-- Whenever `main` calls `pop_mem_exit`, every worker it created has ended. -/
def ShutdownSafe (gen : MainParam) : Prop :=
  ∀ acts s, exec (threadsStep gen) threadsInit acts = some s → s.main = .exit → ∀ w ∈ s.workers, w.pc = .done

/-! ### What a step can do -/

inductive MainMoved (gen : MainParam) (s : Threads) : Threads → Prop
  | netmap (n : Nat) (hmain : s.main = .spawn n) (hlt : n < gen.ncpus) (hmode : gen.mode = .tx) :
      MainMoved gen s (s.create n .senderNetmap (.spawnUnvme n))
  | receiver (n : Nat) (hmain : s.main = .spawn n) (hlt : n < gen.ncpus) (hmode : gen.mode = .rx) :
      MainMoved gen s (s.create n .receiver (.spawn (n + 1)))
  | unvme (n : Nat) (hmain : s.main = .spawnUnvme n) :
      MainMoved gen s (s.create n .senderUnvme (.spawn (n + 1)))
  | spawned (n : Nat) (hmain : s.main = .spawn n) (hge : ¬n < gen.ncpus) :
      MainMoved gen s { s with main := .spawnCount }
  | waits (next : MainPc) (count : CountPc) (caught : Bool)
      (hmain : s.main = .spawnCount ∨ s.main = .sleep) (hnext : next = .sleep ∨ next = .joinCount) :
      MainMoved gen s { s with main := next, count := count, caughtSignal := caught }
  | counted (hmain : s.main = .joinCount) : MainMoved gen s { s with main := .join 0 }
  | joined (n : Nat) (hmain : s.main = .join n) (hlt : n < gen.ncpus) (hjoins : s.joins n = true) :
      MainMoved gen s { s with main := .join (n + 1) }
  | exits (n : Nat) (hmain : s.main = .join n) (hge : ¬n < gen.ncpus) :
      MainMoved gen s { s with main := .exit }

inductive Moved (gen : MainParam) (s : Threads) : Threads → Prop
  | main {t : Threads} (h : MainMoved gen s t) : Moved gen s t
  | flags (count : CountPc) (cancel : Nat → Bool) (caught : Bool) :
      Moved gen s { s with count := count, cancel := cancel, caughtSignal := caught }
  | worker (i : Nat) (w : Worker) (pc : WorkerPc) (hw : s.workers[i]? = some w) (hlive : w.pc ≠ .done) :
      Moved gen s { s with workers := s.workers.set i { w with pc := pc } }

lemma mainStep_moved {gen : MainParam} {s t : Threads}
    (h : mainStep gen s = some t) : MainMoved gen s t := by
  unfold mainStep at h
  cases hmain : s.main with
  | spawn n =>
    rw [hmain] at h
    dsimp only at h
    split at h
    · rename_i hlt
      cases hmode : gen.mode with
      | tx =>
        rw [hmode] at h
        cases h
        exact .netmap n hmain hlt hmode
      | rx =>
        rw [hmode] at h
        cases h
        exact .receiver n hmain hlt hmode
    · rename_i hge
      cases h
      exact .spawned n hmain hge
  | spawnUnvme n =>
    rw [hmain] at h
    cases h
    exact .unvme n hmain
  | spawnCount =>
    rw [hmain] at h
    cases h
    refine .waits _ _ s.caughtSignal (.inl hmain) ?_
    split
    · exact .inl rfl
    · exact .inr rfl
  | sleep =>
    rw [hmain] at h
    cases h
    exact .waits _ s.count _ (.inr hmain) (.inr rfl)
  | joinCount =>
    rw [hmain] at h
    dsimp only at h
    split at h
    · cases h
      exact .counted hmain
    · cases h
  | join n =>
    rw [hmain] at h
    dsimp only at h
    split at h
    · rename_i hlt
      split at h
      · rename_i hjoins
        cases h
        exact .joined n hmain hlt hjoins
      · cases h
    · rename_i hge
      cases h
      exact .exits n hmain hge
  | exit =>
    rw [hmain] at h
    cases h

lemma countStep_moved {gen : MainParam} {s t : Threads}
    (h : countStep gen s = some t) : Moved gen s t := by
  unfold countStep at h
  split at h
  · cases h
  · cases h
    exact .flags _ s.cancel s.caughtSignal
  · cases h
    exact .flags _ s.cancel s.caughtSignal
  · split at h
    · cases h
      exact .flags _ _ s.caughtSignal
    · cases h
      exact .flags _ s.cancel s.caughtSignal
  · cases h

lemma workerStep_moved {gen : MainParam} {s t : Threads} {i : Nat} {world : Bool}
    (h : workerStep gen s i world = some t) : Moved gen s t := by
  unfold workerStep at h
  split at h
  · cases h
  · rename_i w hw
    split at h
    · cases h
    · rename_i pc hnext
      cases h
      refine .worker i w pc hw ?_
      intro hdone
      rw [hdone] at hnext
      cases hnext

lemma threadsStep_moved {gen : MainParam} {s t : Threads} {a : Act}
    (h : threadsStep gen s a = some t) : Moved gen s t := by
  cases a with
  | main => exact .main (mainStep_moved h)
  | count => exact countStep_moved h
  | worker i world => exact workerStep_moved h
  | signal =>
    cases h
    exact .flags s.count s.cancel true

/-! ### What is joined -/

/-- The CPUs for which the last thread has been created. -/
def spawnedBy (gen : MainParam) : MainPc → Nat
  | .spawn n => n
  | .spawnUnvme n => n
  | _ => gen.ncpus.toNat

/-- The CPUs whose thread has been joined. -/
def joinedBy (gen : MainParam) : MainPc → Nat
  | .join n => n
  | .exit => gen.ncpus.toNat
  | _ => 0

/-- Every worker but a netmap thread is the one that `ths[n].tid` names. -/
def Named (s : Threads) (bound : Nat) : Prop :=
  ∀ i w, s.workers[i]? = some w → w.body ≠ .senderNetmap → w.cpu < bound ∧ s.tid w.cpu = some i

structure JoinInv (gen : MainParam) (s : Threads) : Prop where
  spawn_le : ∀ n, s.main = .spawn n → n ≤ gen.ncpus.toNat
  unvme_lt : ∀ n, s.main = .spawnUnvme n → n < gen.ncpus.toNat
  named : Named s (spawnedBy gen s.main)
  joined : ∀ n < joinedBy gen s.main, s.joins n = true
  netmap : ∀ w ∈ s.workers, w.body = .senderNetmap → gen.mode = .tx ∧ 0 < gen.ncpus

lemma joins_eq_true {s : Threads} {n : Nat} :
    s.joins n = true ↔ ∃ i w, s.tid n = some i ∧ s.workers[i]? = some w ∧ w.pc = .done := by
  unfold Threads.joins
  rw [Option.any_eq_true]
  constructor
  · rintro ⟨w, hw, hdone⟩
    obtain ⟨i, hi, hiw⟩ := Option.bind_eq_some_iff.mp hw
    exact ⟨i, w, hi, hiw, of_decide_eq_true hdone⟩
  · rintro ⟨i, w, hi, hiw, hdone⟩
    exact ⟨w, Option.bind_eq_some_iff.mpr ⟨i, hi, hiw⟩, decide_eq_true hdone⟩

/-- A thread that has ended takes no step. -/
lemma joins_set {s : Threads} {i n : Nat} {w : Worker} (pc : WorkerPc) (hw : s.workers[i]? = some w)
    (hlive : w.pc ≠ .done) (h : s.joins n = true) :
    { s with workers := s.workers.set i { w with pc := pc } }.joins n = true := by
  obtain ⟨j, v, htid, hv, hdone⟩ := joins_eq_true.mp h
  refine joins_eq_true.mpr ⟨j, v, htid, ?_, hdone⟩
  have hne : i ≠ j := by
    rintro rfl
    rw [hw] at hv
    cases hv
    exact hlive hdone
  dsimp only
  rw [List.getElem?_set_ne hne]
  exact hv

lemma named_set {s : Threads} {bound i : Nat} {w : Worker} (pc : WorkerPc)
    (hw : s.workers[i]? = some w) (h : Named s bound) :
    Named { s with workers := s.workers.set i { w with pc := pc } } bound := by
  intro j v hv hbody
  dsimp only at hv
  by_cases hj : i = j
  · subst hj
    rw [List.getElem?_set_self (List.getElem?_eq_some_iff.mp hw).1] at hv
    cases hv
    exact h i w hw hbody
  · rw [List.getElem?_set_ne hj] at hv
    exact h j v hv hbody

/-- The new identifier overwrites that of no worker but a netmap thread. -/
lemma named_create {s : Threads} {n bound : Nat} {body : Body} (next : MainPc) (h : Named s n)
    (hle : n ≤ bound) (hnew : body ≠ .senderNetmap → n < bound) :
    Named (s.create n body next) bound := by
  intro i w hw hbody
  unfold Threads.create at hw ⊢
  dsimp only at hw ⊢
  by_cases hi : i < s.workers.length
  · rw [List.getElem?_append_left hi] at hw
    obtain ⟨hlt, htid⟩ := h i w hw hbody
    rw [Function.update_of_ne hlt.ne]
    exact ⟨hlt.trans_le hle, htid⟩
  · rw [List.getElem?_append_right (not_lt.mp hi), List.getElem?_singleton] at hw
    split at hw
    · rename_i hlast
      cases hw
      rw [Function.update_self]
      exact ⟨hnew hbody, congrArg some (by omega)⟩
    · cases hw

lemma netmap_create {P : Prop} {s : Threads} {n : Nat} {body : Body} (next : MainPc)
    (h : ∀ w ∈ s.workers, w.body = .senderNetmap → P) (hnew : body = .senderNetmap → P) :
    ∀ w ∈ (s.create n body next).workers, w.body = .senderNetmap → P := by
  intro w hw
  rcases List.mem_append.mp hw with hold | hlast
  · exact h w hold
  · rw [List.mem_singleton.mp hlast]
    exact hnew

/-- The last thread of a CPU, which is the one that stays in `ths[n].tid`. -/
lemma joinInv_create {gen : MainParam} {s : Threads} {n : Nat} {body : Body}
    (hn : n < gen.ncpus.toNat) (hbody : body ≠ .senderNetmap) (hnamed : Named s n)
    (hnetmap : ∀ w ∈ s.workers, w.body = .senderNetmap → gen.mode = .tx ∧ 0 < gen.ncpus) :
    JoinInv gen (s.create n body (.spawn (n + 1))) := by
  refine ⟨?_, nofun, named_create _ hnamed (Nat.le_succ n) (fun _ => Nat.lt_succ_self n), nofun,
    netmap_create _ hnetmap fun h => absurd h hbody⟩
  intro k hk
  cases hk
  exact hn

lemma joinInv_main {gen : MainParam} {s t : Threads} (h : JoinInv gen s) (hm : MainMoved gen s t) :
    JoinInv gen t := by
  obtain ⟨hle, hlt, hnamed, hjoined, hnetmap⟩ := h
  cases hm with
  | netmap n hmain hn hmode =>
    rw [hmain] at hnamed
    refine ⟨nofun, ?_, named_create _ hnamed le_rfl (fun h => absurd rfl h), nofun,
      netmap_create _ hnetmap fun _ => ⟨hmode, by omega⟩⟩
    intro k hk
    cases hk
    omega
  | receiver n hmain hn hmode =>
    rw [hmain] at hnamed
    exact joinInv_create (by omega) nofun hnamed hnetmap
  | unvme n hmain =>
    have hn := hlt n hmain
    rw [hmain] at hnamed
    exact joinInv_create hn nofun hnamed hnetmap
  | spawned n hmain hge =>
    have hn := hle n hmain
    rw [hmain] at hnamed
    refine ⟨nofun, nofun, fun i w hw hbody => ?_, nofun, hnetmap⟩
    obtain ⟨hcpu, htid⟩ := hnamed i w hw hbody
    exact ⟨hcpu.trans_le hn, htid⟩
  | waits next count caught hmain hnext =>
    have hall : spawnedBy gen s.main = gen.ncpus.toNat := by
      rcases hmain with hmain | hmain <;> rw [hmain] <;> rfl
    rw [hall] at hnamed
    rcases hnext with rfl | rfl
    · exact ⟨nofun, nofun, hnamed, nofun, hnetmap⟩
    · exact ⟨nofun, nofun, hnamed, nofun, hnetmap⟩
  | counted hmain =>
    rw [hmain] at hnamed
    exact ⟨nofun, nofun, hnamed, nofun, hnetmap⟩
  | joined n hmain hn hjoins =>
    rw [hmain] at hnamed hjoined
    refine ⟨nofun, nofun, hnamed, fun k hk => ?_, hnetmap⟩
    rcases Nat.lt_succ_iff_lt_or_eq.mp hk with hbefore | rfl
    · exact hjoined k hbefore
    · exact hjoins
  | exits n hmain hge =>
    rw [hmain] at hnamed hjoined
    refine ⟨nofun, nofun, hnamed, fun k hk => ?_, hnetmap⟩
    have hk' : k < gen.ncpus.toNat := hk
    have hlast : k < n := by omega
    exact hjoined k hlast

lemma joinInv_step {gen : MainParam} (s : Threads) (a : Act) (t : Threads) (h : JoinInv gen s)
    (hs : threadsStep gen s a = some t) : JoinInv gen t := by
  cases threadsStep_moved hs with
  | main hm => exact joinInv_main h hm
  | flags count cancel caught => exact ⟨h.spawn_le, h.unvme_lt, h.named, h.joined, h.netmap⟩
  | worker i w pc hw hlive =>
    refine ⟨h.spawn_le, h.unvme_lt, named_set pc hw h.named,
      fun n hn => joins_set pc hw hlive (h.joined n hn), ?_⟩
    intro v hv
    rcases List.mem_or_eq_of_mem_set hv with hold | rfl
    · exact h.netmap v hold
    · exact h.netmap w (List.mem_of_getElem? hw)

lemma joinInv_init (gen : MainParam) : JoinInv gen threadsInit := by
  refine ⟨?_, nofun, nofun, nofun, nofun⟩
  intro n hn
  cases hn
  exact Nat.zero_le _

theorem joinInv_reachable {gen : MainParam} {acts : List Act} {s : Threads}
    (h : exec (threadsStep gen) threadsInit acts = some s) : JoinInv gen s :=
  exec_invariant joinInv_step (joinInv_init gen) h

/-- The receivers and the NVMe threads have ended when `main` calls `pop_mem_exit`. -/
theorem done_at_exit {gen : MainParam} {s : Threads} (h : JoinInv gen s) (hexit : s.main = .exit)
    {w : Worker} (hw : w ∈ s.workers) (hbody : w.body ≠ .senderNetmap) : w.pc = .done := by
  obtain ⟨i, hi⟩ := List.getElem?_of_mem hw
  obtain ⟨hcpu, htid⟩ := h.named i w hi hbody
  have hall : w.cpu < joinedBy gen s.main := by
    rw [hexit] at hcpu ⊢
    exact hcpu
  obtain ⟨j, v, hj, hv, hdone⟩ := joins_eq_true.mp (h.joined w.cpu hall)
  rw [htid] at hj
  cases hj
  rw [hi] at hv
  cases hv
  exact hdone

/-! ### A run that leaves the netmap threads behind -/

/-- The thread that will be joined for `k` is an NVMe thread that has not looked at its flag yet. -/
def HasSender (s : Threads) (k : Nat) : Prop :=
  ∃ i, s.tid k = some i ∧ s.workers[i]? = some ⟨.senderUnvme, k, .top⟩

lemma hasSender_create_of_ne {s : Threads} {n k : Nat} {body : Body} (next : MainPc) (hk : k ≠ n)
    (h : HasSender s k) : HasSender (s.create n body next) k := by
  obtain ⟨i, htid, hw⟩ := h
  refine ⟨i, ?_, ?_⟩
  · exact (Function.update_of_ne hk _ _).trans htid
  · exact (List.getElem?_append_left (List.getElem?_eq_some_iff.mp hw).1).trans hw

lemma hasSender_create_self (s : Threads) (n : Nat) (next : MainPc) :
    HasSender (s.create n .senderUnvme next) n :=
  ⟨s.workers.length, Function.update_self _ _ _, List.getElem?_concat_length⟩

lemma hasSender_set {s : Threads} {i n k : Nat} {body : Body} {pc : WorkerPc} (hne : k ≠ n)
    (hw : s.workers[i]? = some ⟨body, n, pc⟩) (h : HasSender s k) (w' : Worker) :
    HasSender { s with workers := s.workers.set i w' } k := by
  obtain ⟨j, htid, hj⟩ := h
  refine ⟨j, htid, ?_⟩
  have hij : i ≠ j := by
    rintro rfl
    rw [hw] at hj
    cases hj
    exact hne rfl
  dsimp only
  rw [List.getElem?_set_ne hij]
  exact hj

/-- The netmap thread of the first CPU, before it looks at its flag. -/
def firstNetmap : Worker :=
  ⟨.senderNetmap, 0, .top⟩

structure Spawning (n : Nat) (s : Threads) : Prop where
  main : s.main = .spawn n
  caught : s.caughtSignal = true
  senders : ∀ k < n, HasSender s k
  netmap : 0 < n → firstNetmap ∈ s.workers

structure Cancelling (gen : MainParam) (n : Nat) (s : Threads) : Prop where
  main : s.main = .joinCount
  count : s.count = .cancel n
  cancelled : ∀ k < n, s.cancel k = true
  senders : ∀ k < gen.ncpus.toNat, HasSender s k
  netmap : firstNetmap ∈ s.workers

structure Joining (gen : MainParam) (n : Nat) (s : Threads) : Prop where
  main : s.main = .join n
  cancelled : ∀ k < gen.ncpus.toNat, s.cancel k = true
  senders : ∀ k, n ≤ k → k < gen.ncpus.toNat → HasSender s k
  netmap : firstNetmap ∈ s.workers

section Transmit

variable {gen : MainParam}

lemma spawning_next (hmode : gen.mode = .tx) (n : Nat) (s : Threads) (hn : n < gen.ncpus.toNat)
    (h : Spawning n s) : ∃ t, Reaches (threadsStep gen) s t ∧ Spawning (n + 1) t := by
  have hlt : (n : Int) < gen.ncpus := by omega
  have hfirst : threadsStep gen s .main = some (s.create n .senderNetmap (.spawnUnvme n)) := by
    simp [threadsStep, mainStep, h.main, hmode, hlt]
  refine ⟨_, (Reaches.of_step hfirst).trans (.of_step (i := .main) rfl), rfl, h.caught, ?_, ?_⟩
  · intro k hk
    rcases Nat.lt_succ_iff_lt_or_eq.mp hk with hbefore | rfl
    · exact hasSender_create_of_ne _ hbefore.ne
        (hasSender_create_of_ne _ hbefore.ne (h.senders k hbefore))
    · exact hasSender_create_self _ k _
  · intro _
    apply List.mem_append_left
    cases n with
    | zero => exact List.mem_append_right _ (List.mem_singleton.mpr rfl)
    | succ n => exact List.mem_append_left _ (h.netmap (Nat.succ_pos n))

/-- The count thread sees the signal at once. -/
lemma cancelling_of_spawning (hpos : 0 < gen.ncpus.toNat) {s : Threads}
    (h : Spawning gen.ncpus.toNat s) : ∃ t, Reaches (threadsStep gen) s t ∧ Cancelling gen 0 t := by
  have hspawned : threadsStep gen s .main = some { s with main := .spawnCount } := by
    simp [threadsStep, mainStep, h.main]
  have hwait : Reaches (threadsStep gen) { s with main := .spawnCount }
      { s with main := .joinCount, count := .top } := by
    by_cases htimeout : gen.timeout = 0
    · refine .of_step (i := .main) ?_
      simp [threadsStep, mainStep, htimeout]
    · have hsleep : threadsStep gen { s with main := .spawnCount } .main =
          some { s with main := .sleep, count := .top } := by
        simp [threadsStep, mainStep, htimeout]
      refine (Reaches.of_step hsleep).trans (.of_step (i := .main) ?_)
      simp [threadsStep, mainStep, h.caught]
  have hcount : threadsStep gen { s with main := .joinCount, count := .top } .count =
      some { s with main := .joinCount, count := .cancel 0 } := by
    simp [threadsStep, countStep, h.caught]
  exact ⟨_, (Reaches.of_step hspawned).trans (hwait.trans (.of_step hcount)),
    rfl, rfl, nofun, h.senders, h.netmap hpos⟩

lemma cancelling_next (n : Nat) (s : Threads) (hn : n < gen.ncpus.toNat) (h : Cancelling gen n s) :
    ∃ t, Reaches (threadsStep gen) s t ∧ Cancelling gen (n + 1) t := by
  have hlt : (n : Int) < gen.ncpus := by omega
  have hstep : threadsStep gen s .count =
      some { s with cancel := Function.update s.cancel n true, count := .cancel (n + 1) } := by
    simp [threadsStep, countStep, h.count, hlt]
  refine ⟨_, .of_step hstep, h.main, rfl, ?_, h.senders, h.netmap⟩
  intro k hk
  dsimp only
  by_cases hkn : k = n
  · rw [hkn, Function.update_self]
  · rw [Function.update_of_ne hkn]
    exact h.cancelled k (by omega)

lemma joining_of_cancelling {s : Threads} (h : Cancelling gen gen.ncpus.toNat s) :
    ∃ t, Reaches (threadsStep gen) s t ∧ Joining gen 0 t := by
  have hcount : threadsStep gen s .count = some { s with count := .done } := by
    simp [threadsStep, countStep, h.count]
  have hmain : threadsStep gen { s with count := .done } .main =
      some { s with main := .join 0, count := .done } := by
    simp [threadsStep, mainStep, h.main]
  exact ⟨_, (Reaches.of_step hcount).trans (.of_step hmain), rfl, h.cancelled,
    fun k _ hk => h.senders k hk, h.netmap⟩

/-- The NVMe thread sees its flag and ends, and `main` goes on without a step of the netmap thread. -/
lemma joining_next (n : Nat) (s : Threads) (hn : n < gen.ncpus.toNat) (h : Joining gen n s) :
    ∃ t, Reaches (threadsStep gen) s t ∧ Joining gen (n + 1) t := by
  have hlt : (n : Int) < gen.ncpus := by omega
  obtain ⟨i, htid, hw⟩ := h.senders n le_rfl hn
  have hends : threadsStep gen s (.worker i false) =
      some { s with workers := s.workers.set i ⟨.senderUnvme, n, .done⟩ } := by
    simp [threadsStep, workerStep, workerNext, hw, h.cancelled n hn]
  have hjoins :
      { s with main := .join n, workers := s.workers.set i ⟨.senderUnvme, n, .done⟩ }.joins n = true :=
    joins_eq_true.mpr ⟨i, _, htid, List.getElem?_set_self (List.getElem?_eq_some_iff.mp hw).1, rfl⟩
  have hmain :
      threadsStep gen { s with workers := s.workers.set i ⟨.senderUnvme, n, .done⟩ } .main =
      some { s with main := .join (n + 1), workers := s.workers.set i ⟨.senderUnvme, n, .done⟩ } := by
    simp [threadsStep, mainStep, h.main, hlt, hjoins]
  refine ⟨_, (Reaches.of_step hends).trans (.of_step hmain), rfl, h.cancelled, ?_, ?_⟩
  · intro k hk hall
    exact hasSender_set (by omega) hw (h.senders k (by omega) hall) _
  · obtain ⟨j, hj⟩ := List.getElem?_of_mem h.netmap
    have hij : i ≠ j := by
      rintro rfl
      rw [hw] at hj
      cases hj
    exact List.mem_of_getElem? ((List.getElem?_set_ne hij).trans hj)

/-- With a CPU to send from, `main` can call `pop_mem_exit` before a netmap thread has looked at its
flag. -/
lemma exit_before_netmap (hmode : gen.mode = .tx) (hpos : 0 < gen.ncpus.toNat) :
    ∃ s, Reaches (threadsStep gen) threadsInit s ∧ s.main = .exit ∧ firstNetmap ∈ s.workers := by
  have hstart : Spawning 0 { threadsInit with caughtSignal := true } := ⟨rfl, rfl, nofun, nofun⟩
  obtain ⟨s1, hr1, h1⟩ := reaches_loop (spawning_next hmode) hstart
  obtain ⟨s2, hr2, h2⟩ := cancelling_of_spawning hpos h1
  obtain ⟨s3, hr3, h3⟩ := reaches_loop cancelling_next h2
  obtain ⟨s4, hr4, h4⟩ := joining_of_cancelling h3
  obtain ⟨s5, hr5, h5⟩ := reaches_loop joining_next h4
  have hexit : threadsStep gen s5 .main = some { s5 with main := .exit } := by
    simp [threadsStep, mainStep, h5.main]
  have hsignal : Reaches (threadsStep gen) threadsInit { threadsInit with caughtSignal := true } :=
    .of_step (i := .signal) rfl
  have hrun : Reaches (threadsStep gen) threadsInit { s5 with main := .exit } :=
    hsignal.trans (hr1.trans (hr2.trans (hr3.trans (hr4.trans (hr5.trans (.of_step hexit))))))
  exact ⟨_, hrun, rfl, h5.netmap⟩

end Transmit

/-- Over all interleavings, `pop_mem_exit` finds every worker ended exactly in RX mode, and when there
is no CPU to create a thread for. -/
theorem shutdownSafe_iff (gen : MainParam) : ShutdownSafe gen ↔ gen.mode = .rx ∨ gen.ncpus ≤ 0 := by
  constructor
  · intro hsafe
    by_contra hcond
    obtain ⟨hmode, hncpus⟩ := not_or.mp hcond
    have htx : gen.mode = .tx := by
      cases h : gen.mode with
      | tx => rfl
      | rx => exact absurd h hmode
    obtain ⟨s, ⟨acts, hacts⟩, hexit, hlive⟩ := exit_before_netmap htx (by omega)
    have hdone := hsafe acts s hacts hexit firstNetmap hlive
    cases hdone
  · intro hcond acts s hacts hexit w hw
    have hinv := joinInv_reachable hacts
    apply done_at_exit hinv hexit hw
    intro hbody
    obtain ⟨hmode, hpos⟩ := hinv.netmap w hw hbody
    rcases hcond with hrx | hnone
    · rw [hmode] at hrx
      cases hrx
    · omega

-- a receiver that is stopped and joined
example : (exec (threadsStep ⟨.rx, 1, .seq, 0⟩) threadsInit
    [.main, .main, .main, .signal, .count, .count, .count, .worker 0 false, .main, .main, .main]).map
      (fun s => (s.main, s.workers)) = some (.exit, [⟨.receiver, 0, .done⟩]) := by decide +kernel

/-- One CPU, stopped by SIGINT: the NVMe thread ends and is joined while the netmap thread waits for
the NIC to send its last packets. -/
theorem exit_while_draining :
    (exec (threadsStep ⟨.tx, 1, .seq, 0⟩) threadsInit
      [.main, .main, .main, .main, .worker 0 false, .worker 1 false, .signal, .count, .count, .count,
        .worker 0 false, .worker 0 false, .worker 1 false, .worker 1 false, .worker 0 true, .main,
        .main, .main]).map (fun s => (s.main, s.workers)) =
      some (.exit, [⟨.senderNetmap, 0, .drain⟩, ⟨.senderUnvme, 0, .done⟩]) ∧
      ¬ShutdownSafe ⟨.tx, 1, .seq, 0⟩ := by
  have hrun : (exec (threadsStep ⟨.tx, 1, .seq, 0⟩) threadsInit
      [.main, .main, .main, .main, .worker 0 false, .worker 1 false, .signal, .count, .count, .count,
        .worker 0 false, .worker 0 false, .worker 1 false, .worker 1 false, .worker 0 true, .main,
        .main, .main]).map
        (fun s => (s.main, s.workers)) =
      some (.exit, [⟨.senderNetmap, 0, .drain⟩, ⟨.senderUnvme, 0, .done⟩]) := by decide +kernel
  refine ⟨hrun, ?_⟩
  intro hsafe
  obtain ⟨s, hs, hobs⟩ := Option.map_eq_some_iff.mp hrun
  obtain ⟨hexit, hworkers⟩ := Prod.mk.inj hobs
  have hdone := hsafe _ s hs hexit ⟨.senderNetmap, 0, .drain⟩ (hworkers ▸ List.mem_cons_self)
  cases hdone

end Libpop.Proofs

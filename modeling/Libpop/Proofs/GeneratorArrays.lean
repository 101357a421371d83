import Libpop.Execution
import Libpop.GeneratorIo
import Libpop.Proofs.RingFill

/-!
# Indices into the arrays of generator

The set-up loop of `thread_body` runs once more than there are commands in an iteration, while
the arrays are as large as the largest option. The elements it writes are inside them for
every admitted option but `-B 64`; everything the main loop reads has then been set up, for
every space in the ring.
-/

namespace Libpop.Proofs
open AccessTrace Execution Generator

/-! ### The elements that are set up -/

/-- The elements of the first `n` buffers. -/
def buffersUpTo (p : GenParam) (n : Nat) : Set Cell :=
  {c | ∃ i < n, c = .bufs i ∨ ∃ m < p.batch, c = .pkts i m}

section Setup

variable {p : GenParam} {w : Set Cell}

lemma pkts_written {n m j : Nat} (hj : j < m) : .pkts n j ∈ written (setupPkts n m) := by
  induction m with
  | zero => exact absurd hj (Nat.not_lt_zero j)
  | succ m ih =>
    rw [setupPkts, written_append]
    rcases Nat.lt_succ_iff_lt_or_eq.mp hj with hj | rfl
    · exact Or.inl (ih hj)
    · exact Or.inr (List.mem_cons_of_mem _ List.mem_cons_self)

lemma buffers_written (n : Nat) : buffersUpTo p n ⊆ written (setupBufs p n) := by
  induction n with
  | zero =>
    rintro c ⟨i, hi, -⟩
    exact absurd hi (Nat.not_lt_zero i)
  | succ n ih =>
    rintro c ⟨i, hi, hc⟩
    rw [setupBufs, written_append, written_append]
    rcases Nat.lt_succ_iff_lt_or_eq.mp hi with hi | rfl
    · exact Or.inl (ih ⟨i, hi, hc⟩)
    · rcases hc with rfl | ⟨m, hm, rfl⟩
      · exact Or.inr (Or.inl List.mem_cons_self)
      · exact Or.inr (Or.inr (pkts_written hm))

lemma sound_setupPkts {n m : Nat} (hn : n < maxNvbatchSize) (hm : m ≤ maxBatchSize)
    (hw : .bufs n ∈ w) : Sound Cell.InArray Cell.SetUp w (setupPkts n m) := by
  induction m with
  | zero => trivial
  | succ m ih =>
    rw [setupPkts, sound_append]
    exact ⟨ih (Nat.le_of_succ_le hm), hn, fun _ => Or.inl hw, ⟨hn, hm⟩, trivial⟩

lemma sound_setupBufs {n : Nat} (hn : n ≤ maxNvbatchSize) :
    Sound Cell.InArray Cell.SetUp ∅ (setupBufs p n) := by
  induction n with
  | zero => trivial
  | succ n ih =>
    have hself : Cell.bufs n ∈ insert (Cell.bufs n) (∅ ∪ written (setupBufs p n)) :=
      Set.mem_insert _ _
    rw [setupBufs, sound_append]
    refine ⟨ih (Nat.le_of_succ_le hn), ?_⟩
    exact ⟨hn, hn, fun _ => hself, sound_setupPkts hn p.batch_le hself⟩

lemma sound_setup (hn : p.nvbatch < maxNvbatchSize) :
    Sound Cell.InArray Cell.SetUp ∅ (setup p) := by
  have hfirst : Cell.bufs 0 ∈ buffersUpTo p (p.nvbatch + 1) := ⟨0, Nat.succ_pos _, Or.inl rfl⟩
  rw [setup, sound_append]
  exact ⟨sound_setupBufs hn, Nat.zero_lt_of_lt hn, fun _ => Or.inr (buffers_written _ hfirst),
    trivial⟩

end Setup

/-! ### Iterations -/

section Iterations

variable {p : GenParam} {w : Set Cell} (hw : buffersUpTo p p.nvbatch ⊆ w)

lemma iod_inArray {vb : Nat} (hvb : vb < p.nvbatch) : (Cell.iod vb).InArray :=
  lt_of_lt_of_le hvb p.nvbatch_le

include hw in
lemma sound_submitTrace {n : Nat} (hn : n ≤ p.nvbatch) :
    Sound Cell.InArray Cell.SetUp w (submitTrace n) := by
  induction n with
  | zero => trivial
  | succ n ih =>
    have hbuf : Cell.bufs n ∈ w := hw ⟨n, hn, Or.inl rfl⟩
    rw [submitTrace, sound_append]
    exact ⟨ih (Nat.le_of_succ_le hn), iod_inArray hn, fun _ => Or.inl hbuf, iod_inArray hn, trivial⟩

include hw in
lemma sound_frames {n batch : Nat} (hn : n < p.nvbatch) (hbatch : batch ≤ p.batch) :
    Sound Cell.InArray Cell.SetUp w ((List.range batch).map fun m => .read (.pkts n m)) := by
  have hframe : ∀ c ∈ (List.range batch).map (Cell.pkts n), ∃ m < p.batch, c = .pkts n m := by
    intro c hc
    obtain ⟨m, hm, rfl⟩ := List.mem_map.mp hc
    exact ⟨m, lt_of_lt_of_le (List.mem_range.mp hm) hbatch, rfl⟩
  have hreads : Sound Cell.InArray Cell.SetUp w (((List.range batch).map (Cell.pkts n)).map Access.read) := by
    apply sound_reads
    · intro c hc
      obtain ⟨m, hm, rfl⟩ := hframe c hc
      exact ⟨lt_of_lt_of_le hn p.nvbatch_le, lt_of_lt_of_le hm p.batch_le⟩
    · intro c hc
      exact hw ⟨n, hn, Or.inr (hframe c hc)⟩
  rw [List.map_map] at hreads
  exact hreads

include hw in
lemma sound_fillTrace (poll : Nat → Int) {nvbatch rest n : Nat} (hn : n ≤ p.nvbatch)
    (hbatch : ∀ vb, p.batchOf nvbatch rest vb ≤ p.batch) :
    Sound Cell.InArray Cell.SetUp w (fillTrace p poll nvbatch rest n) := by
  induction n with
  | zero => trivial
  | succ n ih =>
    rw [fillTrace, sound_append]
    refine ⟨ih (Nat.le_of_succ_le hn), iod_inArray hn, False.elim, ?_⟩
    split
    · trivial
    · exact (sound_frames hw hn (hbatch n)).mono Set.subset_union_left

include hw in
lemma sound_dumpTrace {batch n : Nat} (hn : n ≤ p.nvbatch) (hbatch : batch ≤ p.batch) :
    Sound Cell.InArray Cell.SetUp w (dumpTrace batch n) := by
  induction n with
  | zero => trivial
  | succ n ih =>
    rw [dumpTrace, sound_append]
    exact ⟨ih (Nat.le_of_succ_le hn), (sound_frames hw hn hbatch).mono Set.subset_union_left⟩

include hw in
/-- Whatever the space in the ring and the polls, an iteration only uses what was set up. -/
lemma sound_iterationTrace (hexDump : Bool) (th : GenThread) (env : GenEnv) :
    Sound Cell.InArray Cell.SetUp w (iterationTrace p hexDump th env) := by
  have hplan := plan_le p (nmRingSpace th.ring)
  have hbatch := batchOf_le p (nmRingSpace th.ring)
  unfold iterationTrace
  dsimp only
  split
  · trivial
  · rw [sound_append, sound_append]
    refine ⟨?_, ?_, ?_⟩
    · split
      · trivial
      · exact sound_submitTrace hw hplan
    · exact (sound_fillTrace hw env.poll hplan hbatch).mono Set.subset_union_left
    · cases hexDump with
      | false => trivial
      | true =>
        apply (sound_dumpTrace hw hplan (hbatch _)).mono
        exact Set.subset_union_left.trans Set.subset_union_left

end Iterations

/-! The trace is that of the loops of `threadBody`: it reads the frames that the iteration puts
into slots and the buffers that its commands read into. -/

def frameRead : Access Cell → Option (Nat × Nat)
  | .read (.pkts n m) => some (n, m)
  | _ => none

def bufferRead : Access Cell → Option Nat
  | .read (.bufs n) => some n
  | _ => none

section Loops

variable (p : GenParam) (g : GenBuffers) (r : NetmapRing)

lemma frames_fillBatch (vb : Nat) (f : Filling) (n : Nat) :
    (fillBatch p g r vb f n).fills.map (fun x => (x.vb, x.b)) =
      f.fills.map (fun x => (x.vb, x.b)) ++ (List.range n).map fun b => (vb, b) := by
  induction n with
  | zero => simp [fillBatch]
  | succ n ih =>
    rw [fillBatch, fillSlot, List.map_append, ih, List.range_succ, List.map_append,
      List.append_assoc]
    rfl

lemma frames_fillLoop (disk : Bytes.Mem) (reads : List GenRead) (poll : Nat → Int)
    (nvbatch rest : Nat) (f : Filling) (n : Nat) :
    (fillLoop p g r disk reads poll nvbatch rest f n).fills.map (fun x => (x.vb, x.b)) =
      f.fills.map (fun x => (x.vb, x.b)) ++ (fillTrace p poll nvbatch rest n).filterMap frameRead := by
  induction n with
  | zero => simp [fillLoop, fillTrace]
  | succ n ih =>
    rw [fillLoop, fillTrace, List.filterMap_append, ← List.append_assoc, ← ih]
    dsimp only
    split
    · simp [frameRead]
    · have hframes :
          ((List.range (p.batchOf nvbatch rest n)).map fun b =>
            Access.read (Cell.pkts n b)).filterMap frameRead =
          (List.range (p.batchOf nvbatch rest n)).map fun b => (n, b) := by
        rw [List.filterMap_map, ← List.filterMap_eq_map]
        rfl
      rw [frames_fillBatch, (arrive_fills p disk reads n _).1, List.filterMap_cons_none rfl,
        hframes]

lemma buffers_fillTrace (poll : Nat → Int) (nvbatch rest n : Nat) :
    (fillTrace p poll nvbatch rest n).filterMap bufferRead = [] := by
  induction n with
  | zero => rfl
  | succ n ih =>
    rw [fillTrace, List.filterMap_append, ih, List.nil_append, List.filterMap_cons_none rfl]
    split
    · rfl
    · simp [bufferRead]

lemma buffers_submitTrace (n : Nat) : (submitTrace n).filterMap bufferRead = List.range n := by
  induction n with
  | zero => rfl
  | succ n ih =>
    rw [submitTrace, List.filterMap_append, ih, List.range_succ]
    rfl

lemma frames_submitTrace (n : Nat) : (submitTrace n).filterMap frameRead = [] := by
  induction n with
  | zero => rfl
  | succ n ih =>
    rw [submitTrace, List.filterMap_append, ih]
    rfl

end Loops

theorem iterationTrace_uses {p : GenParam} {g : GenBuffers} {disk : Bytes.Mem} {th t : GenThread}
    {env : GenEnv} (h : threadBody p g disk th env = some t) :
    (iterationTrace p false th env).filterMap frameRead = t.fills.map (fun x => (x.vb, x.b)) ∧
      (iterationTrace p false th env).filterMap bufferRead = t.reads.map GenRead.vb := by
  obtain ⟨-, -, hmove⟩ := threadBody_move h
  unfold iterationTrace
  cases hmove with
  | full hspace _ hreads hfills =>
    rw [if_pos hspace, hreads, hfills]
    exact ⟨rfl, rfl⟩
  | filled reads hspace hreading hreads hfills _ _ =>
    rw [if_neg hspace, hreads, hfills]
    unfold filling
    rw [frames_fillLoop]
    unfold reading at hreading
    dsimp only
    rw [List.filterMap_append, List.filterMap_append, List.filterMap_append, List.filterMap_append]
    cases hfake : p.fakePacket with
    | true =>
      rw [hfake, if_pos rfl, Option.some.injEq, Prod.mk.injEq] at hreading
      rw [← hreading.1]
      simp [buffers_fillTrace]
    | false =>
      rw [hfake, if_neg Bool.false_ne_true] at hreading
      rw [submit_vb hreading, ← List.range_eq_range']
      simp [buffers_fillTrace, buffers_submitTrace, frames_submitTrace]

/-! ### Runs -/

structure TraceInv (p : GenParam) (s : TraceState) : Prop where
  sound : Sound Cell.InArray Cell.SetUp ∅ s.trace
  setUp : buffersUpTo p p.nvbatch ⊆ written s.trace

section Runs

variable {p : GenParam} {g : GenBuffers} {disk : Bytes.Mem} {hexDump : Bool}

lemma TraceInv.next {s : TraceState} (h : TraceInv p s) (env : GenEnv) :
    Sound Cell.InArray Cell.SetUp ∅ (s.trace ++ iterationTrace p hexDump s.thread env) := by
  rw [sound_append]
  exact ⟨h.sound, sound_iterationTrace (h.setUp.trans Set.subset_union_right) hexDump s.thread env⟩

lemma traceInv_step (s : TraceState) (env : GenEnv) (t : TraceState) (h : TraceInv p s)
    (hs : traceStep p g disk hexDump s env = some t) : TraceInv p t := by
  unfold traceStep at hs
  split at hs
  · cases hs
  · cases hs
    refine ⟨h.next env, ?_⟩
    rw [written_append]
    exact h.setUp.trans Set.subset_union_left

lemma traceInv_init (hn : p.nvbatch < maxNvbatchSize) (n : Nat) (ring : NetmapRing)
    (bufs : Nat → Bytes.Mem) : TraceInv p (traceInit p n ring bufs) := by
  refine ⟨sound_setup hn, ?_⟩
  rintro c ⟨i, hi, hc⟩
  unfold traceInit setup
  rw [written_append]
  exact Or.inl (buffers_written _ ⟨i, Nat.lt_succ_of_lt hi, hc⟩)

end Runs

/-- Over every run of a thread, and in the iteration that comes next, all indices are inside
their arrays and everything read from `bufs` and `pkts` has been written, exactly when `nvbatch`
is below the size of the arrays. -/
theorem arrays_sound_iff (p : GenParam) (g : GenBuffers) (disk : Bytes.Mem) (hexDump : Bool)
    (n : Nat) (ring : NetmapRing) (bufs : Nat → Bytes.Mem) :
    (∀ envs s, exec (traceStep p g disk hexDump) (traceInit p n ring bufs) envs = some s →
        ∀ env, Sound Cell.InArray Cell.SetUp ∅ (s.trace ++ iterationTrace p hexDump s.thread env)) ↔
      p.nvbatch < maxNvbatchSize := by
  constructor
  · intro h
    have hsetup := (sound_append.mp (h [] _ rfl allPolled)).1
    have hlast : Access.write (Cell.bufs p.nvbatch) ∈ setup p := by
      apply List.mem_append_left
      rw [setupBufs]
      exact List.mem_append_right _ (List.mem_append_left _ List.mem_cons_self)
    exact hsetup.valid_of_mem hlast
  · intro hn envs s hrun env
    exact (exec_invariant traceInv_step (traceInv_init hn n ring bufs) hrun).next env

/-- The largest `-B`. -/
def sixtyFour : GenParam :=
  .ofOptions 1 64 1 .seq 0 0x40000 false 9 (by decide)

/-- The set-up writes `bufs[64]` and `pkts[64][0]`. -/
theorem arrays_overrun :
    Access.write (Cell.bufs 64) ∈ setup sixtyFour ∧
      Access.write (Cell.pkts 64 0) ∈ setup sixtyFour ∧
      ¬(Cell.bufs 64).InArray ∧ ¬(Cell.pkts 64 0).InArray := by
  refine ⟨by decide +kernel, by decide +kernel, fun h => Nat.lt_irrefl 64 h,
    fun h => Nat.lt_irrefl 64 h.1⟩

end Libpop.Proofs

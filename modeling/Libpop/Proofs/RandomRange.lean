import Libpop.Proofs.BenchRanges
import Libpop.Proofs.GeneratorWalk
import Libpop.Proofs.NvgenWalk

/-!
# The modulus of a random walk

`next_lba` takes `rand()` modulo `lba_end - lba_start - nblocks`. No option parser compares the
end LBA, the number of CPUs and the size of a command, so in each of the three applications a
range that is not longer than a command divides by zero or by a wrapped number.
-/

namespace Libpop.Proofs
open BenchNvme Execution

/-- The modulus is not 0, and is the difference of the numbers. -/
def ProperRange (lbaStart lbaEnd nblocks : BitVec 64) : Prop :=
  lbaEnd - lbaStart - nblocks ≠ 0 ∧
    ((lbaEnd - lbaStart - nblocks).toNat : Int) = (lbaEnd.toNat : Int) - lbaStart.toNat - nblocks.toNat

lemma properRange_iff {lbaStart lbaEnd nblocks : BitVec 64} {len : Nat}
    (hlen : lbaEnd.toNat = lbaStart.toNat + len) :
    ProperRange lbaStart lbaEnd nblocks ↔ nblocks.toNat < len := by
  constructor
  · rintro ⟨hne, hdiff⟩
    have hpos : 0 < (lbaEnd - lbaStart - nblocks).toNat :=
      Nat.pos_of_ne_zero fun h => hne (BitVec.eq_of_toNat_eq h)
    omega
  · intro hlt
    obtain ⟨hne, -⟩ := random_inside 0 (show lbaStart.toNat + nblocks.toNat < lbaEnd.toNat by omega)
    have hdiff := toNat_random_range (show lbaStart.toNat + nblocks.toNat ≤ lbaEnd.toNat by omega)
    exact ⟨hne, by omega⟩

/-! ### generator -/

/-- Whenever an iteration of generator is about to call `next_lba`. -/
def GeneratorProper (p : Generator.GenParam) : Prop :=
  p.walk = .random → ∀ n < p.ncpus, ∀ g disk ring bufs envs t,
    exec (Generator.threadBody p g disk) (Generator.spawn p n ring bufs) envs = some t →
    t.running = true → nmRingSpace t.ring ≠ 0 → p.fakePacket = false →
    ProperRange t.lbaStart t.lbaEnd (BitVec.ofNat 64 p.nblocks)

lemma generatorProper_iff (p : Generator.GenParam) :
    GeneratorProper p ↔
      (p.walk = .random → p.fakePacket = false → p.nblocks < (p.lbaEnd - p.lbaStart).toNat / p.ncpus) := by
  have hblocks := toNat_genNblocks p
  constructor
  · intro h hwalk hfake
    have hspace : nmRingSpace (atStart 7).ring ≠ 0 := by decide
    have hproper :=
      h hwalk 0 p.ncpus_pos twoByTwoBuffers (fun _ => 0) (atStart 7).ring (fun _ _ => 0) [] _ rfl rfl
      hspace hfake
    rw [← hblocks]
    exact (properRange_iff (genRange_length p p.ncpus_pos)).mp hproper
  · intro h hwalk n hn g disk ring bufs envs t hrun _ _ hfake
    have hinit : Walked p n (fun _ => True) (Generator.spawn p n ring bufs) :=
      ⟨rfl, rfl, trivial, fun _ _ => trivial⟩
    have hinv := exec_invariant (walked_step fun _ _ _ _ _ => trivial) hinit hrun
    rw [hinv.lbaStart, hinv.lbaEnd, properRange_iff (genRange_length p hn), hblocks]
    exact h hwalk hfake

/-! ### nvgen -/

/-- Whenever the NVMe thread of a CPU is about to call `next_lba`. -/
def NvgenProper (p : NvgenParam) : Prop :=
  p.walk = .random → ∀ cpu < p.ncpus, ∀ ops s,
    exec (nvmeStep (p.conf cpu)) (nvmeInit (p.conf cpu)) ops = some s → s.unvme.pc = .issue →
    ProperRange (p.conf cpu).lbaStart (p.conf cpu).lbaEnd (s.unvme.nblocks.setWidth 64)

lemma conf_length (p : NvgenParam) {cpu : Nat} (hcpu : cpu < p.ncpus) :
    (p.conf cpu).lbaEnd.toNat = (p.conf cpu).lbaStart.toNat + p.lbaEnd.toNat / p.ncpus := by
  have hcpus : p.ncpus < 2 ^ 64 := lt_of_le_of_lt p.ncpus_le (by decide)
  unfold NvgenParam.conf
  rw [Word.toNat_div_mul p.lbaEnd hcpus hcpu.le, Word.toNat_div_mul p.lbaEnd hcpus hcpu]
  exact Nat.mul_succ _ _

/-- The first pass issues a read. -/
lemma nvmeStep_first {conf : NvgenConf} (hwalk : conf.walk = .random) (hbatch : conf.nvbatch ≠ 0) :
    ∃ s, nvmeStep conf (nvmeInit conf) (.unvme .avail) = some s ∧ s.unvme.pc = .issue := by
  obtain ⟨batch, hplan, hpos⟩ :
      ∃ batch, passPlan conf nvgenRingInit.writeAvail = some (batch, 1) ∧ batch ≠ 0 := by
    unfold passPlan
    dsimp only
    rw [hwalk]
    dsimp only
    split
    · exact ⟨_, rfl, hbatch⟩
    · exact ⟨_, rfl, by decide⟩
  have havail : ¬nvgenRingInit.writeAvail < 2 := by decide
  have hlt : (0 : BitVec 32) < batch := Nat.pos_of_ne_zero fun h => hpos (BitVec.eq_of_toNat_eq h)
  refine ⟨⟨nvgenRingInit,
    { passStart nvgenRingInit (unvmeInit conf) batch 1 with pc := .issue }, []⟩, ?_, rfl⟩
  have hstep : unvmeStep conf nvgenRingInit (unvmeInit conf) .avail =
      some (nvgenRingInit, { passStart nvgenRingInit (unvmeInit conf) batch 1 with pc := .issue }, none) := by
    unfold unvmeStep unvmeInit
    dsimp only
    rw [if_neg havail, hplan]
    unfold afterIssue passStart
    dsimp only
    rw [if_pos hlt]
  unfold nvmeStep nvmeInit
  dsimp only
  rw [hstep]
  rfl

lemma nvgen_random_one {p : NvgenParam} {cpu : Nat} {ops : List NvmeOp} {s : NvmeState}
    (hwalk : p.walk = .random)
    (hrun : exec (nvmeStep (p.conf cpu)) (nvmeInit (p.conf cpu)) ops = some s)
    (hpc : s.unvme.pc = .issue) : (s.unvme.nblocks.setWidth 64).toNat = 1 ∧ p.nvbatch ≠ 0 := by
  have hinit : (nvmeInit (p.conf cpu)).unvme.pc = .issue →
      Planned (p.conf cpu) (nvmeInit (p.conf cpu)).unvme :=
    fun h => by cases h
  rcases exec_invariant planned_step hinit hrun hpc with ⟨hseq, -⟩ | ⟨-, hone, hbatch⟩
  · exact absurd (hwalk.symm.trans hseq) (by decide)
  · rw [hone]
    exact ⟨rfl, hbatch⟩

lemma nvgenProper_iff (p : NvgenParam) :
    NvgenProper p ↔ (p.walk = .random → p.ncpus ≠ 0 → p.nvbatch ≠ 0 → 1 < p.lbaEnd.toNat / p.ncpus) := by
  constructor
  · intro h hwalk hcpus hbatch
    have hcpu : 0 < p.ncpus := Nat.pos_of_ne_zero hcpus
    obtain ⟨s, hs, hpc⟩ : ∃ s, nvmeStep (p.conf 0) (nvmeInit (p.conf 0)) (.unvme .avail) = some s ∧
        s.unvme.pc = .issue := nvmeStep_first hwalk hbatch
    have hrun : exec (nvmeStep (p.conf 0)) (nvmeInit (p.conf 0)) [.unvme .avail] = some s :=
      (exec_cons hs).mpr rfl
    have hlt := (properRange_iff (conf_length p hcpu)).mp (h hwalk 0 hcpu _ s hrun hpc)
    rwa [(nvgen_random_one hwalk hrun hpc).1] at hlt
  · intro h hwalk cpu hcpu ops s hrun hpc
    obtain ⟨hone, hbatch⟩ := nvgen_random_one hwalk hrun hpc
    rw [properRange_iff (conf_length p hcpu), hone]
    exact h hwalk (Nat.ne_of_gt (Nat.zero_lt_of_lt hcpu)) hbatch

/-! ### bench-nvme -/

/-- Whenever a thread of bench-nvme is about to call `next_lba`. -/
def BenchProper (p : BenchParam) : Prop :=
  p.walk = .random → ∀ events s, exec (benchStep p) (benchInit p) events = some s →
    ∀ (n : Nat) (th : BenchThread) (b : Nat), s.threads[n]? = some th → th.pc = .issue b →
    ProperRange th.lbaStart th.lbaEnd (BitVec.ofNat 64 p.nblocks)

/-- The range of a thread, and that it only issues the commands of its batch. -/
structure IssueInv (p : BenchParam) (s : BenchState) : Prop where
  threads : ∀ n th, s.threads[n]? = some th → n < p.ncpus ∧ th.lbaStart = (p.range n).1 ∧
    th.lbaEnd = (p.range n).2 ∧ ∀ b, th.pc = .issue b → b < p.batch

lemma issueInv_init (p : BenchParam) : IssueInv p (benchInit p) := by
  refine ⟨fun n th hth => ?_⟩
  obtain ⟨hn, rfl⟩ := benchInit_threads hth
  exact ⟨hn, rfl, rfl, fun b hb => by cases hb⟩

lemma issueInv_step {p : BenchParam} (s : BenchState) (event : BenchEvent)
    (t : BenchState) (h : IssueInv p s) (hs : benchStep p s event = some t) : IssueInv p t := by
  rcases benchStep_cases hs with ⟨hthreads, -⟩ | ⟨n, op, th, th', command, hth, hrun, hself, hothers, -⟩
  · exact ⟨hthreads ▸ h.threads⟩
  · refine ⟨fun m th'' hm => ?_⟩
    by_cases hmn : m = n
    · subst hmn
      rw [hself, Option.some.injEq] at hm
      subst hm
      obtain ⟨hn, hstart, hend, -⟩ := h.threads m th hth
      obtain ⟨hstart', hend', hissue, -⟩ := benchStart_move hrun
      exact ⟨hn, hstart'.trans hstart, hend'.trans hend, hissue⟩
    · rw [hothers m hmn] at hm
      exact h.threads m th'' hm

/-- The first thread starts with a command. -/
lemma benchStep_first (p : BenchParam) (hbatch : p.batch ≠ 0) :
    ∃ s, benchStep p (benchInit p) (.run 0 .loop) = some s ∧
      s.threads[0]? = some { BenchNvme.spawn p 0 with pc := .issue 0 } := by
  have hloop : issueFrom p 0 = .issue 0 := if_pos (Nat.pos_of_ne_zero hbatch)
  have hfirst : (benchInit p).threads[0]? = some (BenchNvme.spawn p 0) := by
    rw [benchInit, List.getElem?_map, List.getElem?_range p.ncpus_pos]
    rfl
  have hstart : benchStart p false 0 (BenchNvme.spawn p 0) .loop =
      some ({ BenchNvme.spawn p 0 with pc := .issue 0 }, none) := by
    rw [← hloop]
    rfl
  have hcaught : (benchInit p).caughtSignal = false := rfl
  refine ⟨⟨false, (benchInit p).threads.set 0 { BenchNvme.spawn p 0 with pc := .issue 0 }, []⟩, ?_,
    ?_⟩
  · unfold benchStep
    dsimp only
    rw [hfirst]
    dsimp only
    rw [hcaught, hstart]
    rfl
  · exact List.getElem?_set_self (List.getElem?_eq_some_iff.mp hfirst).1

lemma benchProper_iff (p : BenchParam) :
    BenchProper p ↔ (p.walk = .random → p.batch ≠ 0 → p.nblocks < BenchParam.rangeLength p) := by
  have hblocks := toNat_nblocks p
  constructor
  · intro h hwalk hbatch
    obtain ⟨s, hs, hself⟩ := benchStep_first p hbatch
    have hproper := h hwalk [.run 0 .loop] s ((exec_cons hs).mpr rfl) 0 _ 0 hself rfl
    rw [← hblocks]
    exact (properRange_iff (range_length p p.ncpus_pos).1).mp hproper
  · intro h hwalk events s hrun n th b hth hpc
    obtain ⟨hn, hstart, hend, hissue⟩ :=
      (exec_invariant issueInv_step (issueInv_init p) hrun).threads n th hth
    have hb := hissue b hpc
    rw [hstart, hend, properRange_iff (range_length p hn).1, hblocks]
    exact h hwalk (Nat.ne_of_gt (Nat.zero_lt_of_lt hb))

/-! ### All three -/

/-- Every call of `next_lba` in random mode has a proper modulus exactly when the range of each
thread is longer than a command, or no command is ever issued. -/
theorem random_ranges_proper_iff (g : Generator.GenParam) (n : NvgenParam) (b : BenchParam) :
    (GeneratorProper g ↔
        (g.walk = .random → g.fakePacket = false → g.nblocks < (g.lbaEnd - g.lbaStart).toNat / g.ncpus)) ∧
      (NvgenProper n ↔ (n.walk = .random → n.ncpus ≠ 0 → n.nvbatch ≠ 0 → 1 < n.lbaEnd.toNat / n.ncpus)) ∧
      (BenchProper b ↔ (b.walk = .random → b.batch ≠ 0 → b.nblocks < BenchParam.rangeLength b)) :=
  ⟨generatorProper_iff g, nvgenProper_iff n, benchProper_iff b⟩

/-- One frame at a time from the first four blocks of 512 bytes. -/
def fourBlocks : Generator.GenParam :=
  .ofOptions 1 1 1 .random 0 4 false 9 (by decide)

def oneBlock : NvgenParam :=
  ⟨4, 1, .random, 1, 1, by decide, by decide, by decide⟩

/-- Two blocks of 512 bytes at a time from a range of one. -/
def twoOfOne : BenchParam :=
  ⟨.read, .random, .equal, 1024, 1, 1, 1, 9, by decide, by decide, by decide, by decide⟩

/-- Two of them divide by zero, and bench-nvme goes on at an LBA outside its range. -/
theorem random_ranges_improper :
    (¬GeneratorProper fourBlocks ∧
      Generator.threadBody fourBlocks twoByTwoBuffers (fun _ => 0)
        (Generator.spawn fourBlocks 0 (atStart 7).ring fun _ _ => 0) allPolled = none) ∧
      (¬NvgenProper oneBlock ∧
        exec (nvmeStep (oneBlock.conf 0)) (nvmeInit (oneBlock.conf 0))
          [.unvme .avail, .unvme (.aread 0)] = none) ∧
      (¬BenchProper twoOfOne ∧
        (exec (benchStep twoOfOne) (benchInit twoOfOne) [.run 0 .loop, .run 0 (.issue 100)]).map
          (fun s => s.threads.map BenchThread.lba) = some [100]) := by
  refine ⟨⟨?_, rfl⟩, ⟨?_, by decide +kernel⟩, ⟨?_, by decide +kernel⟩⟩
  · rw [generatorProper_iff]
    exact fun h => absurd (h rfl rfl) (by decide)
  · rw [nvgenProper_iff]
    exact fun h => absurd (h rfl (by decide) (by decide)) (by decide)
  · rw [benchProper_iff]
    exact fun h => absurd (h rfl (by decide)) (by decide)

end Libpop.Proofs

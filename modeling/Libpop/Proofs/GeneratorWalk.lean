import Mathlib.Data.Finset.Union
import Mathlib.Order.Interval.Finset.Nat
import Libpop.Proofs.LbaWalks
import Libpop.Proofs.RingFill

/-!
# The LBAs that generator reads

`main` divides the LBAs among the threads without adding the start LBA to their ranges, so
the ranges are a split of what was asked for only when it starts at 0. A thread reads where
the walk over its range leads it, from one iteration to the next.
-/

namespace Libpop.Proofs
open Execution Generator

/-! ### Ranges of the threads -/

def threadLbas (p : GenParam) (n : Nat) : Finset Nat :=
  Finset.Ico (p.range n).1.toNat (p.range n).2.toNat

/-- The ranges do not meet, stay inside the LBAs asked for and leave out fewer than `ncpus`. -/
structure Splits (p : GenParam) : Prop where
  disjoint : ∀ m < p.ncpus, ∀ n < p.ncpus, m ≠ n → Disjoint (threadLbas p m) (threadLbas p n)
  inside : ∀ n < p.ncpus, threadLbas p n ⊆ Finset.Ico p.lbaStart.toNat p.lbaEnd.toNat
  covers : (Finset.Ico p.lbaStart.toNat p.lbaEnd.toNat \ (Finset.range p.ncpus).biUnion (threadLbas p)).card <
    p.ncpus

section Ranges

variable {p : GenParam} (hle : p.lbaStart ≤ p.lbaEnd)

/-- The LBAs of one thread. -/
def width (p : GenParam) : Nat :=
  (p.lbaEnd.toNat - p.lbaStart.toNat) / p.ncpus

lemma genRange_toNat (p : GenParam) {n : Nat} (hn : n < p.ncpus) :
    (p.range n).1.toNat = (p.lbaEnd - p.lbaStart).toNat / p.ncpus * n ∧
      (p.range n).2.toNat = (p.lbaEnd - p.lbaStart).toNat / p.ncpus * (n + 1) := by
  have hcpus : p.ncpus < 2 ^ 64 := lt_of_le_of_lt p.ncpus_le (by decide)
  exact ⟨Word.toNat_div_mul _ hcpus hn.le, Word.toNat_div_mul _ hcpus hn⟩

lemma genRange_length (p : GenParam) {n : Nat} (hn : n < p.ncpus) :
    (p.range n).2.toNat = (p.range n).1.toNat + (p.lbaEnd - p.lbaStart).toNat / p.ncpus := by
  obtain ⟨hstart, hend⟩ := genRange_toNat p hn
  rw [hstart, hend]
  exact Nat.mul_succ _ _

include hle in
lemma threadLbas_eq {n : Nat} (hn : n < p.ncpus) :
    threadLbas p n = Finset.Ico (width p * n) (width p * (n + 1)) := by
  have hsub : (p.lbaEnd - p.lbaStart).toNat = p.lbaEnd.toNat - p.lbaStart.toNat :=
    BitVec.toNat_sub_of_le hle
  obtain ⟨hstart, hend⟩ := genRange_toNat p hn
  unfold threadLbas width
  rw [hstart, hend, hsub]

include hle in
lemma biUnion_threadLbas :
    (Finset.range p.ncpus).biUnion (threadLbas p) = Finset.Ico 0 (width p * p.ncpus) := by
  rw [← Stride.biUnion_Ico]
  apply Finset.biUnion_congr rfl
  intro n hn
  exact threadLbas_eq hle (Finset.mem_range.mp hn)

include hle in
lemma disjoint_threadLbas {m n : Nat} (hm : m < p.ncpus) (hn : n < p.ncpus) (hmn : m ≠ n) :
    Disjoint (threadLbas p m) (threadLbas p n) := by
  rw [threadLbas_eq hle hm, threadLbas_eq hle hn]
  exact Stride.disjoint_Ico hmn

lemma width_mul_le (p : GenParam) : width p * p.ncpus ≤ p.lbaEnd.toNat - p.lbaStart.toNat :=
  Nat.div_mul_le_self _ _

include hle in
lemma threadLbas_subset (hstart : p.lbaStart.toNat = 0) {n : Nat} (hn : n < p.ncpus) :
    threadLbas p n ⊆ Finset.Ico p.lbaStart.toNat p.lbaEnd.toNat := by
  have hwidth := width_mul_le p
  have hend : width p * (n + 1) ≤ width p * p.ncpus := Nat.mul_le_mul_left _ hn
  rw [threadLbas_eq hle hn]
  apply Finset.Ico_subset_Ico
  · rw [hstart]
    exact Nat.zero_le _
  · omega

/-- What the threads leave out from 0 on is the rest of the division. -/
lemma card_rest_lt (hstart : p.lbaStart.toNat = 0) :
    (Finset.Ico p.lbaStart.toNat p.lbaEnd.toNat \ Finset.Ico 0 (width p * p.ncpus)).card <
      p.ncpus := by
  have hmod := Nat.mod_lt (p.lbaEnd.toNat - p.lbaStart.toNat) p.ncpus_pos
  have hdiv := Nat.div_add_mod' (p.lbaEnd.toNat - p.lbaStart.toNat) p.ncpus
  have hrest : Finset.Ico p.lbaStart.toNat p.lbaEnd.toNat \ Finset.Ico 0 (width p * p.ncpus) ⊆
      Finset.Ico (width p * p.ncpus) p.lbaEnd.toNat := by
    intro lba hlba
    rw [Finset.mem_sdiff, Finset.mem_Ico, Finset.mem_Ico] at hlba
    rw [Finset.mem_Ico]
    omega
  have hcard := Finset.card_le_card hrest
  rw [Nat.card_Ico] at hcard
  unfold width at hcard ⊢
  omega

end Ranges

/-- The ranges split the LBAs asked for exactly when these start at 0, or are too few for every
thread to get one. -/
theorem ranges_split_iff (p : GenParam) (hle : p.lbaStart ≤ p.lbaEnd) :
    Splits p ↔ p.lbaStart = 0 ∨ p.lbaEnd.toNat - p.lbaStart.toNat < p.ncpus := by
  have hpos : 0 < p.ncpus := p.ncpus_pos
  constructor
  · intro h
    by_cases hzero : width p = 0
    · exact Or.inr ((Nat.div_eq_zero_iff_lt hpos).mp hzero)
    · have hfirst : 0 ∈ threadLbas p 0 := by
        rw [threadLbas_eq hle hpos, Finset.mem_Ico]
        omega
      have hstart := Finset.mem_Ico.mp (h.inside 0 hpos hfirst)
      exact Or.inl (BitVec.eq_of_toNat_eq (Nat.le_zero.mp hstart.1))
  · rintro (hzero | hshort)
    · have hstart : p.lbaStart.toNat = 0 := congrArg BitVec.toNat hzero
      refine ⟨fun m hm n hn => disjoint_threadLbas hle hm hn, fun n => threadLbas_subset hle hstart,
        ?_⟩
      rw [biUnion_threadLbas hle]
      exact card_rest_lt hstart
    · have hnone : width p = 0 := Nat.div_eq_of_lt hshort
      refine ⟨fun m hm n hn => disjoint_threadLbas hle hm hn, ?_, ?_⟩
      · intro n hn
        rw [threadLbas_eq hle hn, hnone, Nat.zero_mul, Nat.zero_mul, Finset.Ico_self]
        exact Finset.empty_subset _
      · rw [biUnion_threadLbas hle, hnone, Nat.zero_mul, Finset.Ico_self, Finset.sdiff_empty,
          Nat.card_Ico]
        exact hshort

/-- Two threads that read from `lbaStart` to `lbaEnd`. -/
def twoThreads (lbaStart lbaEnd : BitVec 64) : GenParam :=
  .ofOptions 1 1 2 .seq lbaStart lbaEnd false 9 (by decide)

theorem ranges_split_from_zero : Splits (twoThreads 0 200) :=
  (ranges_split_iff (twoThreads 0 200) (by decide)).mpr (Or.inl rfl)

/-- Asked for 100 to 200, the threads read 0 to 50 and 50 to 100. -/
theorem ranges_miss_start :
    (twoThreads 100 200).lbaStart ≤ (twoThreads 100 200).lbaEnd ∧
      (twoThreads 100 200).range 0 = (0, 50) ∧
      (twoThreads 100 200).range 1 = (50, 100) ∧ ¬Splits (twoThreads 100 200) := by
  refine ⟨by decide, rfl, rfl, fun h => ?_⟩
  have hfirst : 0 ∈ threadLbas (twoThreads 100 200) 0 := Finset.mem_Ico.mpr (by decide)
  exact absurd (Finset.mem_Ico.mp (h.inside 0 (by decide) hfirst)).1 (by decide)

/-! ### Reads of a thread -/

section Threads

variable {p : GenParam}

lemma submit_keeps {lbaStart lbaEnd : BitVec 64} {P : BitVec 64 → Prop}
    (hP : ∀ lba rand lba', P lba →
      generatorWalk p.walk lbaStart lbaEnd (BitVec.ofNat 64 p.nblocks) lba rand = some lba' →
        P lba')
    {rand : Nat → BitVec 31} {vb n : Nat} {lba last : BitVec 64} {reads : List GenRead} (hlba : P lba)
    (h : submit p lbaStart lbaEnd rand vb n lba = some (reads, last)) :
    P last ∧ ∀ read ∈ reads, P read.lba := by
  induction n generalizing vb lba reads with
  | zero =>
    cases h
    exact ⟨hlba, by simp⟩
  | succ n ih =>
    unfold submit at h
    split at h
    · cases h
    · rename_i next hnext
      split at h
      · cases h
      · rename_i rest _ hrest
        cases h
        obtain ⟨hlast, hreads⟩ := ih (hP _ _ _ hlba hnext) hrest
        exact ⟨hlast, List.forall_mem_cons.mpr ⟨hlba, hreads⟩⟩

variable {g : GenBuffers} {disk : Bytes.Mem} {n : Nat} {ring : NetmapRing} {bufs : Nat → Bytes.Mem}
  {envs : List GenEnv} {t : GenThread}

structure Walked (p : GenParam) (n : Nat) (P : BitVec 64 → Prop) (t : GenThread) : Prop where
  lbaStart : t.lbaStart = (p.range n).1
  lbaEnd : t.lbaEnd = (p.range n).2
  lba : P t.lba
  reads : ∀ read ∈ t.reads, P read.lba

lemma walked_step {P : BitVec 64 → Prop}
    (hP : ∀ lba rand lba', P lba →
      generatorWalk p.walk (p.range n).1 (p.range n).2 (BitVec.ofNat 64 p.nblocks)
        lba rand = some lba' → P lba')
    (th : GenThread) (env : GenEnv) (t : GenThread) (hth : Walked p n P th)
    (h : threadBody p g disk th env = some t) : Walked p n P t := by
  obtain ⟨hstart, hend, hmove⟩ := threadBody_move h
  suffices hwalk : P t.lba ∧ ∀ read ∈ t.reads, P read.lba from
    ⟨hstart.trans hth.lbaStart, hend.trans hth.lbaEnd, hwalk.1, hwalk.2⟩
  cases hmove with
  | full _ hsame hnone _ => exact ⟨hsame ▸ hth.lba, by simp [hnone]⟩
  | filled reads _ hreading hreads =>
    rw [hreads]
    unfold reading at hreading
    split at hreading
    · rw [Option.some.injEq, Prod.mk.injEq] at hreading
      obtain ⟨rfl, hsame⟩ := hreading
      exact ⟨hsame ▸ hth.lba, by simp⟩
    · rw [hth.lbaStart, hth.lbaEnd] at hreading
      exact submit_keeps hP hth.lba hreading

/-- What `next_lba` keeps holds wherever a thread reads. -/
lemma thread_reads_keep {P : BitVec 64 → Prop} (hstart : P (p.range n).1)
    (hP : ∀ lba rand lba', P lba →
      generatorWalk p.walk (p.range n).1 (p.range n).2 (BitVec.ofNat 64 p.nblocks)
        lba rand = some lba' → P lba')
    (h : exec (threadBody p g disk) (spawn p n ring bufs) envs = some t) :
    ∀ read ∈ t.reads, P read.lba := by
  have hinit : Walked p n P (spawn p n ring bufs) := ⟨rfl, rfl, hstart, by simp [spawn]⟩
  exact (exec_invariant (walked_step hP) hinit h).reads

/-- A thread reads where the walk of `next_lba` from the start of its range leads. -/
theorem thread_reads_on_walk (h : exec (threadBody p g disk) (spawn p n ring bufs) envs = some t) :
    ∀ read ∈ t.reads, ∃ rands,
      exec (generatorWalk p.walk (p.range n).1 (p.range n).2 (BitVec.ofNat 64 p.nblocks))
      (p.range n).1 rands = some read.lba := by
  apply thread_reads_keep (P := fun lba => ∃ rands, exec (generatorWalk p.walk (p.range n).1 (p.range n).2
    (BitVec.ofNat 64 p.nblocks)) (p.range n).1 rands = some lba) ⟨[], rfl⟩ ?_ h
  rintro lba rand lba' ⟨rands, hrands⟩ hnext
  exact ⟨rands ++ [rand], exec_snoc hrands hnext⟩

lemma toNat_genNblocks (p : GenParam) : (BitVec.ofNat 64 p.nblocks).toNat = p.nblocks := by
  have hbatch := p.batch_le
  have hshift : p.batch <<< 11 = p.batch * 2048 := Nat.shiftLeft_eq _ _
  have hle : p.batch <<< 11 >>> p.blockshift ≤ p.batch <<< 11 := Nat.shiftRight_le _ _
  rw [BitVec.toNat_ofNat]
  apply Nat.mod_eq_of_lt
  unfold GenParam.nblocks
  split <;> omega

/-- Whatever the ring and the device do, a thread reads only blocks of its range when a read
divides it or the walk is random. -/
theorem thread_reads_inside (hpos : 1 ≤ p.nblocks)
    (hlong : p.nblocks < (p.range n).2.toNat - (p.range n).1.toNat)
    (hmax : (p.range n).2.toNat + p.nblocks < 2 ^ 64)
    (hwalk : p.walk = .random ∨ p.nblocks ∣ (p.range n).2.toNat - (p.range n).1.toNat)
    (h : exec (threadBody p g disk) (spawn p n ring bufs) envs = some t) :
    ∀ read ∈ t.reads, WalkInside (p.range n).1 (p.range n).2 p.nblocks read.lba := by
  intro read hread
  have hblocks := toNat_genNblocks p
  obtain ⟨rands, hrands⟩ := thread_reads_on_walk h read hread
  rw [← hblocks] at hpos hlong hmax hwalk ⊢
  obtain ⟨lba, hlba, hin⟩ := generatorWalk_inside hpos hlong hmax hwalk rands
  rw [hrands, Option.some.injEq] at hlba
  exact hlba ▸ hin

end Threads

end Libpop.Proofs

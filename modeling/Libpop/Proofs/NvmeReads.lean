import Mathlib.Order.Interval.Set.Basic
import Libpop.Execution
import Libpop.Nvgen

/-!
# Reads of the NVMe thread

The ring index wraps, one NVMe read does not. A sequential pass reads all its blocks with
one command, so it stays inside the packet buffer exactly as long as it does not reach the
end of the ring; the random walk reads two slots at a time from an even index and always
does.
-/

namespace Libpop.Proofs
open Execution

/-! ### Indices and occupancy -/

lemma toNat_writeNextBatch {r : NvgenRing} (hm : r.mask = 255) (head n : BitVec 32) :
    (r.writeNextBatch head n).toNat = (head.toNat + n.toNat) % 256 := by
  unfold NvgenRing.writeNextBatch
  have hlow := Word.toNat_and_low (head + n) 8 (by decide)
  rw [hm]
  refine hlow.trans ?_
  rw [BitVec.toNat_add]
  omega

/-- The slots from the reader's index up to the writer's. -/
def usedSlots (r : NvgenRing) : Nat :=
  (r.head.toNat + 256 - r.tail.toNat) % 256

def freeSlots (r : NvgenRing) : Nat :=
  256 - usedSlots r

/-- `ring_write_avail` keeps one slot back only when the reader is behind the writer. -/
lemma toNat_writeAvail {r : NvgenRing} (hh : r.head.toNat < 256) (ht : r.tail.toNat < 256) :
    r.writeAvail.toNat = if r.tail.toNat < r.head.toNat then freeSlots r - 1 else freeSlots r := by
  have hsub : (r.tail - r.head).toNat = (2 ^ 32 - r.head.toNat + r.tail.toNat) % 2 ^ 32 :=
    BitVec.toNat_sub _ _
  have hsign : (r.tail - r.head).slt 0 = true ↔ r.tail.toNat < r.head.toNat := by
    have hzero : (0 : BitVec 32).toInt = 0 := rfl
    rw [BitVec.slt_iff_toInt_lt, BitVec.toInt_eq_toNat_cond, hsub, hzero]
    split <;> omega
  unfold NvgenRing.writeAvail freeSlots usedSlots slotNum
  dsimp only
  by_cases hzero : r.tail - r.head = 0
  · have heq : r.tail.toNat = r.head.toNat := by
      rw [hzero] at hsub
      simp at hsub
      omega
    rw [if_pos hzero, if_neg (by omega), heq]
    simp
  · have hne : r.tail.toNat ≠ r.head.toNat := by
      intro heq
      rw [BitVec.eq_of_toNat_eq heq] at hzero
      exact hzero (BitVec.sub_self _)
    rw [if_neg hzero]
    by_cases hlt : r.tail.toNat < r.head.toNat
    · rw [if_pos (hsign.mpr hlt), if_pos hlt, BitVec.toNat_add, hsub, BitVec.toNat_ofNat]
      omega
    · rw [if_neg (fun h => hlt (hsign.mp h)), if_neg hlt, hsub]
      omega

/-- A pass fills at most the free slots it saw, in whole blocks, and at most `nvbatch` blocks. -/
lemma passPlan_some {conf : NvgenConf} {space batch nblocks : BitVec 32}
    (h : passPlan conf space = some (batch, nblocks)) :
    2 * (nblocks.toNat * batch.toNat) ≤ space.toNat - space.toNat % 2 ∧
      nblocks.toNat * batch.toNat ≤ conf.nvbatch.toNat ∧
      (conf.walk = .seq ∧ batch = 1 ∨ conf.walk = .random ∧ nblocks = 1) := by
  have hhalf : ((space &&& ~~~1#32) >>> 1).toNat = (space.toNat - space.toNat % 2) / 2 := by
    rw [Word.toNat_shiftRight_div, Word.toNat_and_not_one]
    rfl
  have hplan : ∀ n : BitVec 32,
      n = (if (space &&& ~~~1#32) >>> 1 > conf.nvbatch then conf.nvbatch else (space &&& ~~~1#32) >>> 1) →
        2 * n.toNat ≤ space.toNat - space.toNat % 2 ∧ n.toNat ≤ conf.nvbatch.toNat := by
    intro n hn
    split at hn
    · rename_i hgt
      have hlt : conf.nvbatch.toNat < ((space &&& ~~~1#32) >>> 1).toNat := hgt
      subst hn
      omega
    · rename_i hgt
      have hle : ((space &&& ~~~1#32) >>> 1).toNat ≤ conf.nvbatch.toNat := Nat.le_of_not_lt hgt
      subst hn
      omega
  have hone : (1 : BitVec 32).toNat = 1 := rfl
  unfold passPlan at h
  dsimp only at h
  cases hw : conf.walk with
  | seq =>
    rw [hw] at h
    cases h
    obtain ⟨hspace, hnv⟩ := hplan _ rfl
    rw [hone, Nat.mul_one]
    exact ⟨hspace, hnv, .inl ⟨rfl, rfl⟩⟩
  | random =>
    rw [hw] at h
    cases h
    obtain ⟨hspace, hnv⟩ := hplan _ rfl
    rw [hone, Nat.one_mul]
    exact ⟨hspace, hnv, .inr ⟨rfl, rfl⟩⟩
  | same =>
    rw [hw] at h
    cases h

/-! ### Steps of the thread -/

/-- The locals with which a pass starts. -/
def passStart (ring : NvgenRing) (t : UnvmeThread) (batch nblocks : BitVec 32) : UnvmeThread :=
  { t with batch := batch, nblocks := nblocks, head := ring.head, b := 0 }

/-- The locals after the `b`-th read was issued. -/
def issued (ring : NvgenRing) (t : UnvmeThread) (lba : BitVec 32) : UnvmeThread :=
  { t with lba := lba, b := t.b + 1, head := ring.writeNextBatch t.head (t.nblocks <<< 1) }

/-- Every step of the NVMe thread. -/
inductive UnvmeMove (conf : NvgenConf) (ring : NvgenRing) (t : UnvmeThread) :
    UnvmeOp → NvgenRing × UnvmeThread × Option Aread → Prop
  | idle (hpc : t.pc = .top) : UnvmeMove conf ring t .avail (ring, t, none)
  | left (op : UnvmeOp) (hpc : t.pc = .top) (hop : op ≠ .publish) :
      UnvmeMove conf ring t op (ring, { t with pc := .done }, none)
  | planned (batch nblocks : BitVec 32) (hpc : t.pc = .top)
      (hplan : passPlan conf ring.writeAvail = some (batch, nblocks)) :
      UnvmeMove conf ring t .avail (ring, afterIssue (passStart ring t batch nblocks), none)
  | issued (rand : BitVec 31) (lba : BitVec 32) (hpc : t.pc = .issue)
      (hnext : (nextLba conf.walk (t.lba.setWidth 64) conf.lbaStart conf.lbaEnd
        (t.nblocks.setWidth 64) rand).map
        (BitVec.setWidth 32) = some lba) :
      UnvmeMove conf ring t (.aread rand)
        (ring, afterIssue (issued ring t lba), some ⟨t.head, t.lba, t.nblocks⟩)
  | polled (ret : Int) (nbytes : BitVec 64) (hpc : t.pc = .poll) :
      UnvmeMove conf ring t (.apoll ret) (ring, afterPoll { t with nbytes := nbytes, b := t.b + 1 }, none)
  | published (hpc : t.pc = .publish) :
      UnvmeMove conf ring t .publish ({ ring with head := t.head }, { t with pc := .top }, none)

theorem unvmeStep_move {conf : NvgenConf} {ring : NvgenRing} {t : UnvmeThread} {op : UnvmeOp}
    {res : NvgenRing × UnvmeThread × Option Aread} (h : unvmeStep conf ring t op = some res) :
    UnvmeMove conf ring t op res := by
  unfold unvmeStep at h
  split at h
  · rename_i hpc
    split at h
    · cases h
      exact .idle hpc
    · split at h
      · cases h
        exact .left _ hpc (by simp)
      · rename_i batch nblocks hplan
        cases h
        exact .planned batch nblocks hpc hplan
  · rename_i hpc
    split at h
    · cases h
    · rename_i lba hnext
      cases h
      exact .issued _ _ hpc (by rw [hnext]; rfl)
  · rename_i hpc
    cases h
    exact .polled _ _ hpc
  · rename_i hpc
    cases h
    exact .published hpc
  · rename_i hpc
    cases h
    exact .left _ hpc (by simp)
  · cases h

lemma afterIssue_cases (t : UnvmeThread) :
    (t.b < t.batch ∧ afterIssue t = { t with pc := .issue }) ∨
      ¬t.b < t.batch ∧ (0 < t.batch ∧ afterIssue t = { t with pc := .poll, b := 0 } ∨
        t.batch = 0 ∧ afterIssue t = { t with pc := .publish, b := 0 }) := by
  unfold afterIssue
  by_cases hb : t.b < t.batch
  · rw [if_pos hb]
    exact .inl ⟨hb, rfl⟩
  · rw [if_neg hb]
    right
    by_cases hz : 0 < t.batch
    · rw [if_pos hz]
      exact ⟨hb, .inl ⟨hz, rfl⟩⟩
    · rw [if_neg hz]
      have hzero : t.batch.toNat = 0 := Nat.eq_zero_of_not_pos hz
      exact ⟨hb, .inr ⟨BitVec.eq_of_toNat_eq hzero, rfl⟩⟩

lemma afterPoll_cases (t : UnvmeThread) :
    (t.b < t.batch ∧ afterPoll t = { t with pc := .poll }) ∨
      ¬t.b < t.batch ∧ afterPoll t = { t with pc := .publish } := by
  unfold afterPoll
  by_cases hb : t.b < t.batch
  · rw [if_pos hb]
    exact .inl ⟨hb, rfl⟩
  · rw [if_neg hb]
    exact .inr ⟨hb, rfl⟩

/-! ### The packet buffer -/

/-- The read writes only bytes of the packet buffer at `buf`. -/
def ReadInside (buf : Nat) (read : Aread) : Prop :=
  Set.Ico (buf + 2048 * read.slot.toNat) (buf + 2048 * read.slot.toNat + read.nblocks.toNat * 4096) ⊆
    Set.Ico buf (buf + 2048 * slotNum)

/-- A sequential pass has to be short enough for the slots up to the end of the ring, or start
at slot 0, or find the reader ahead of it or, behind it, in one of the first three slots. -/
def PassFits (conf : NvgenConf) (ring : NvgenRing) : Prop :=
  conf.walk = .seq → ring.head = 0 ∨ 2 * conf.nvbatch.toNat ≤ 256 - ring.head.toNat ∨
    ring.head < ring.tail ∨ ring.tail < ring.head ∧ ring.tail.toNat < 3

def StaysInside (conf : NvgenConf) (s : NvmeState) : NvmeOp → Prop
  | .unvme .avail => PassFits conf s.ring
  | _ => True

/-- The index is even, and a read about to be issued ends inside the ring; only passes of
one-block reads have more than one. -/
structure ThreadFits (t : UnvmeThread) : Prop where
  head_lt : t.head.toNat < 256
  head_even : t.head.toNat % 2 = 0
  fits : t.pc = .issue → t.head.toNat + 2 * t.nblocks.toNat ≤ 256
  single : t.pc = .issue → t.batch = 1 ∧ t.b = 0 ∨ t.nblocks = 1

structure ReadsInv (s : NvmeState) : Prop where
  mask : s.ring.mask = 255
  head_lt : s.ring.head.toNat < 256
  head_even : s.ring.head.toNat % 2 = 0
  tail_lt : s.ring.tail.toNat < 256
  thread : ThreadFits s.unvme
  reads : ∀ read ∈ s.reads, read.slot.toNat + 2 * read.nblocks.toNat ≤ 256

lemma readInside_of_le {read : Aread} (h : read.slot.toNat + 2 * read.nblocks.toNat ≤ 256)
    (buf : Nat) : ReadInside buf read := by
  apply Set.Ico_subset_Ico
  · omega
  · unfold slotNum
    omega

lemma ThreadFits.of_pc {t : UnvmeThread} (h : ThreadFits t) {pc : UnvmePc} (hpc : pc ≠ .issue)
    (b : BitVec 32) (nbytes : BitVec 64) :
    ThreadFits { t with pc := pc, b := b, nbytes := nbytes } where
  head_lt := h.head_lt
  head_even := h.head_even
  fits := fun hi => absurd hi hpc
  single := fun hi => absurd hi hpc

lemma ThreadFits.afterIssue {t : UnvmeThread} (hlt : t.head.toNat < 256)
    (heven : t.head.toNat % 2 = 0)
    (hfits : t.b < t.batch → t.head.toNat + 2 * t.nblocks.toNat ≤ 256)
    (hsingle : t.b < t.batch → t.batch = 1 ∧ t.b = 0 ∨ t.nblocks = 1) :
    ThreadFits (afterIssue t) := by
  rcases afterIssue_cases t with ⟨hb, he⟩ | ⟨-, ⟨-, he⟩ | ⟨-, he⟩⟩
  · rw [he]
    exact ⟨hlt, heven, fun _ => hfits hb, fun _ => hsingle hb⟩
  · rw [he]
    exact ⟨hlt, heven, by simp, by simp⟩
  · rw [he]
    exact ⟨hlt, heven, by simp, by simp⟩

lemma ThreadFits.planned {conf : NvgenConf} {ring : NvgenRing} (t : UnvmeThread)
    {batch nblocks : BitVec 32} (hh : ring.head.toNat < 256) (he : ring.head.toNat % 2 = 0)
    (ht : ring.tail.toNat < 256) (hg : PassFits conf ring)
    (hplan : passPlan conf ring.writeAvail = some (batch, nblocks)) :
    ThreadFits (Libpop.afterIssue (passStart ring t batch nblocks)) := by
  obtain ⟨hspace, hnv, hwalk⟩ := passPlan_some hplan
  apply ThreadFits.afterIssue hh he
  · intro _
    dsimp only [passStart]
    rcases hwalk with ⟨hw, hb⟩ | ⟨-, hn⟩
    · have hone : batch.toNat = 1 := by rw [hb]; rfl
      rw [hone, Nat.mul_one] at hspace hnv
      rw [toNat_writeAvail hh ht] at hspace
      unfold freeSlots usedSlots at hspace
      rcases hg hw with h0 | hshort | hahead | ⟨hbehind, hthree⟩
      · have hz : ring.head.toNat = 0 := by rw [h0]; rfl
        split at hspace <;> omega
      · omega
      · have hahead' : ring.head.toNat < ring.tail.toNat := hahead
        split at hspace <;> omega
      · have hbehind' : ring.tail.toNat < ring.head.toNat := hbehind
        split at hspace <;> omega
    · have hone : nblocks.toNat = 1 := by rw [hn]; rfl
      omega
  · intro _
    rcases hwalk with ⟨-, hb⟩ | ⟨-, hn⟩
    · exact .inl ⟨hb, rfl⟩
    · exact .inr hn

lemma ThreadFits.issued {ring : NvgenRing} {t : UnvmeThread} (hm : ring.mask = 255)
    (h : ThreadFits t) (hpc : t.pc = .issue) (lba : BitVec 32) :
    ThreadFits (Libpop.afterIssue (Proofs.issued ring t lba)) := by
  have hfits := h.fits hpc
  have heven := h.head_even
  have hadvance : (t.nblocks <<< 1).toNat = 2 * t.nblocks.toNat :=
    Word.toNat_shiftLeft_one _ (by omega)
  have hhead : (Proofs.issued ring t lba).head.toNat =
      (t.head.toNat + 2 * t.nblocks.toNat) % 256 := by
    unfold Proofs.issued
    rw [toNat_writeNextBatch hm, hadvance]
  have hmore : (Proofs.issued ring t lba).b < (Proofs.issued ring t lba).batch → t.nblocks = 1 := by
    intro hb
    rcases h.single hpc with ⟨hbatch, hb0⟩ | hn
    · -- a sequential pass has no second read
      have hnext : t.b + 1 < t.batch := hb
      rw [hbatch, hb0] at hnext
      exact absurd hnext (by decide)
    · exact hn
  apply ThreadFits.afterIssue
  · omega
  · omega
  · intro hb
    have hone : (Proofs.issued ring t lba).nblocks.toNat = 1 := congrArg BitVec.toNat (hmore hb)
    omega
  · intro hb
    exact .inr (hmore hb)

/-- A step of the thread that issues nothing. -/
lemma ReadsInv.setUnvme {s : NvmeState} (h : ReadsInv s) {t : UnvmeThread} (ht : ThreadFits t) :
    ReadsInv ⟨s.ring, t, s.reads ++ []⟩ := by
  rw [List.append_nil]
  exact { h with thread := ht }

lemma readsInv_step {conf : NvgenConf} (s : NvmeState) (op : NvmeOp) (s' : NvmeState)
    (h : ReadsInv s) (hg : StaysInside conf s op)
    (hs : nvmeStep conf s op = some s') : ReadsInv s' := by
  cases op with
  | consume n =>
    cases hs
    refine { h with tail_lt := ?_ }
    have htail := toNat_writeNextBatch h.mask s.ring.tail n
    unfold NvgenRing.writeNextBatch at htail
    dsimp only
    omega
  | unvme op =>
    simp only [nvmeStep] at hs
    split at hs
    · cases hs
    · rename_i ring t read hstep
      cases hs
      cases unvmeStep_move hstep with
      | idle hpc => exact h.setUnvme h.thread
      | left op hpc hop => exact h.setUnvme (h.thread.of_pc (by simp) _ _)
      | planned batch nblocks hpc hplan =>
        exact h.setUnvme (.planned s.unvme h.head_lt h.head_even h.tail_lt hg hplan)
      | issued rand lba hpc =>
        refine { h with thread := h.thread.issued h.mask hpc lba, reads := ?_ }
        intro read hread
        rcases List.mem_append.mp hread with hold | hnew
        · exact h.reads read hold
        · rw [Option.mem_toList, Option.some.injEq] at hnew
          exact hnew ▸ h.thread.fits hpc
      | polled ret nbytes hpc =>
        apply h.setUnvme
        rcases afterPoll_cases { s.unvme with nbytes := nbytes, b := s.unvme.b + 1 } with ⟨-, he⟩ | ⟨-, he⟩
        · rw [he]
          exact h.thread.of_pc (by simp) _ _
        · rw [he]
          exact h.thread.of_pc (by simp) _ _
      | published hpc =>
        have hring : ReadsInv { s with ring := { s.ring with head := s.unvme.head } } :=
          { h with head_lt := h.thread.head_lt, head_even := h.thread.head_even }
        exact hring.setUnvme (h.thread.of_pc (by simp) _ _)

/-- In every run against any consumer whose passes all start where they fit, every read of the
NVMe thread writes only bytes of the packet buffer. -/
theorem nvme_reads_inside_buffer (conf : NvgenConf) (buf : Nat) {ops : List NvmeOp}
    (hg : Guarded (nvmeStep conf) (StaysInside conf) (nvmeInit conf) ops) :
    Throughout (nvmeStep conf) (fun s => ∀ read ∈ s.reads, ReadInside buf read) (nvmeInit conf) ops := by
  have hinit : ReadsInv (nvmeInit conf) := by
    refine ⟨rfl, ?_, ?_, ?_, ⟨?_, ?_, ?_, ?_⟩, ?_⟩ <;> simp [nvmeInit, unvmeInit, nvgenRingInit]
  apply throughout_of_guarded _ readsInv_step hinit hg
  intro s h read hread
  exact readInside_of_le (h.reads read hread) buf

instance (conf : NvgenConf) (s : NvmeState) (op : NvmeOp) : Decidable (StaysInside conf s op) := by
  unfold StaysInside PassFits
  split <;> infer_instance

/-- Two sequential passes of 50 blocks with the reader catching up in between. -/
theorem nvme_reads_inside_two_passes :
    Throughout (nvmeStep ⟨64, 50, .seq, 0, 0xf0000⟩) (fun s => ∀ read ∈ s.reads, ReadInside 0x200000 read)
      (nvmeInit ⟨64, 50, .seq, 0, 0xf0000⟩)
      [.unvme .avail, .unvme (.aread 0), .unvme (.apoll 0), .unvme .publish, .consume 100,
        .unvme .avail, .unvme (.aread 0)] :=
  nvme_reads_inside_buffer _ _ (by decide)

/-- Options `-w seq -B 100`. -/
def seqConf : NvgenConf :=
  ⟨64, 100, .seq, 0, 0xf0000⟩

/-- A pass from slot 0, a reader that catches up, and a pass from slot 200. -/
def secondPass : List NvmeOp :=
  [.unvme .avail, .unvme (.aread 0), .unvme (.apoll 0), .unvme .publish, .consume 200,
    .unvme .avail, .unvme (.aread 0)]

/-- The second pass reads 100 blocks into slot 200, 144 slots past the end of the buffer. -/
theorem nvme_read_overruns_buffer :
    (exec (nvmeStep seqConf) (nvmeInit seqConf) secondPass).map NvmeState.reads =
        some [⟨0, 0, 100⟩, ⟨200, 100, 100⟩] ∧
      ¬Throughout (nvmeStep seqConf) (fun s => ∀ read ∈ s.reads, ReadInside 0x200000 read)
        (nvmeInit seqConf) secondPass := by
  have hrun : (exec (nvmeStep seqConf) (nvmeInit seqConf) secondPass).map NvmeState.reads =
      some [⟨0, 0, 100⟩, ⟨200, 100, 100⟩] := by decide
  refine ⟨hrun, not_throughout_of_map hrun ?_⟩
  intro s hreads hinside
  have hin : ReadInside 0x200000 ⟨200, 100, 100⟩ := hinside _ (by simp [hreads])
  have hlast :
      0x200000 + 2048 * 399 ∈ Set.Ico (0x200000 + 2048 * 200) (0x200000 + 2048 * 200 + 100 * 4096) := by
    constructor <;> decide
  have hout := (hin hlast).2
  exact absurd hout (by decide)

end Libpop.Proofs

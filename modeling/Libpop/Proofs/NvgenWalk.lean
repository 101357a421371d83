import Libpop.Proofs.LbaWalks
import Libpop.Proofs.NvmeReads

/-!
# The LBAs that nvgen reads

In a sequential walk the NVMe thread looks ahead by the blocks of the read it has just issued,
but the next pass may read more of them when the ring has drained. With passes of up to two
blocks the look-ahead is enough; with larger ones a walk in single blocks stops two blocks
before the end of the range, where a full pass overruns it. The LBA is kept in 32 bits, so
beyond `2 ^ 32` it falls back to the start of the disk.
-/

namespace Libpop.Proofs
open Execution

def ReadsRange (conf : NvgenConf) (read : Aread) : Prop :=
  WalkInside conf.lbaStart conf.lbaEnd read.nblocks.toNat (read.lba.setWidth 64)

instance (conf : NvgenConf) (read : Aread) : Decidable (ReadsRange conf read) :=
  inferInstanceAs (Decidable (WalkInside _ _ _ _))

/-- The blocks of a pass; one with random reads has some only if `nvbatch` is not 0. -/
def Planned (conf : NvgenConf) (t : UnvmeThread) : Prop :=
  conf.walk = .seq ∧ t.nblocks.toNat ≤ conf.nvbatch.toNat ∨
    conf.walk = .random ∧ t.nblocks = 1 ∧ conf.nvbatch ≠ 0

/-- A step issues a read and moves on in the walk, or does neither. -/
inductive WalkMove (conf : NvgenConf) (s s' : NvmeState) : Prop
  | silent (hlba : s'.unvme.lba = s.unvme.lba) (hreads : s'.reads = s.reads)
      (hplan : s'.unvme.pc = .issue → Planned conf s'.unvme ∨ s'.unvme = s.unvme)
  | issued (rand : BitVec 31) (hpc : s.unvme.pc = .issue)
      (hnext : (nextLba conf.walk (s.unvme.lba.setWidth 64) conf.lbaStart conf.lbaEnd
        (s.unvme.nblocks.setWidth 64) rand).map (BitVec.setWidth 32) = some s'.unvme.lba)
      (hblocks : s'.unvme.nblocks = s.unvme.nblocks)
      (hreads : s'.reads = s.reads ++ [⟨s.unvme.head, s.unvme.lba, s.unvme.nblocks⟩])

section Steps

variable {conf : NvgenConf}

lemma afterIssue_lba (t : UnvmeThread) :
    (afterIssue t).lba = t.lba ∧ (afterIssue t).nblocks = t.nblocks := by
  rcases afterIssue_cases t with ⟨-, he⟩ | ⟨-, ⟨-, he⟩ | ⟨-, he⟩⟩ <;> rw [he] <;> exact ⟨rfl, rfl⟩

lemma afterIssue_issue {t : UnvmeThread} (h : (afterIssue t).pc = .issue) : t.b < t.batch := by
  rcases afterIssue_cases t with ⟨hb, -⟩ | ⟨-, ⟨-, he⟩ | ⟨-, he⟩⟩
  · exact hb
  · rw [he] at h
    cases h
  · rw [he] at h
    cases h

lemma afterPoll_lba (t : UnvmeThread) : (afterPoll t).lba = t.lba ∧ (afterPoll t).pc ≠ .issue := by
  rcases afterPoll_cases t with ⟨-, he⟩ | ⟨-, he⟩ <;> rw [he] <;> exact ⟨rfl, by simp⟩

lemma nvmeStep_walk {s s' : NvmeState} {op : NvmeOp}
    (h : nvmeStep conf s op = some s') : WalkMove conf s s' := by
  cases op with
  | consume n =>
    cases h
    exact .silent rfl rfl fun _ => Or.inr rfl
  | unvme op =>
    simp only [nvmeStep] at h
    split at h
    · cases h
    · rename_i ring t read hstep
      cases h
      cases unvmeStep_move hstep with
      | idle hpc => exact .silent rfl (List.append_nil _) fun _ => Or.inr rfl
      | left op hpc hop => exact .silent rfl (List.append_nil _) fun hissue => by cases hissue
      | planned batch nblocks hpc hplan =>
        obtain ⟨hlba, hblocks⟩ := afterIssue_lba (passStart s.ring s.unvme batch nblocks)
        refine .silent hlba (List.append_nil _) fun hissue => Or.inl ?_
        obtain ⟨-, hnv, ⟨hw, rfl⟩ | ⟨hw, rfl⟩⟩ := passPlan_some hplan
        · refine Or.inl ⟨hw, ?_⟩
          rw [hblocks]
          exact Nat.mul_one nblocks.toNat ▸ hnv
        · have hb : 0 < batch.toNat := afterIssue_issue hissue
          refine Or.inr ⟨hw, hblocks, fun hzero => ?_⟩
          rw [hzero] at hnv
          have hone : (1 : BitVec 32).toNat * batch.toNat = batch.toNat := Nat.one_mul _
          exact absurd (hone ▸ hnv) (not_le.mpr hb)
      | issued rand lba hpc hnext =>
        obtain ⟨hlba, hblocks⟩ := afterIssue_lba (issued s.ring s.unvme lba)
        exact .issued rand hpc (hnext.trans (congrArg some hlba.symm)) hblocks rfl
      | polled ret nbytes hpc =>
        obtain ⟨hlba, hnot⟩ := afterPoll_lba { s.unvme with nbytes := nbytes, b := s.unvme.b + 1 }
        exact .silent hlba (List.append_nil _) fun hissue => absurd hissue hnot
      | published hpc => exact .silent rfl (List.append_nil _) fun hissue => by cases hissue

lemma planned_step (s : NvmeState) (op : NvmeOp) (s' : NvmeState)
    (h : s.unvme.pc = .issue → Planned conf s.unvme) (hs : nvmeStep conf s op = some s') :
    s'.unvme.pc = .issue → Planned conf s'.unvme := by
  intro hissue
  cases nvmeStep_walk hs with
  | silent _ _ hplan =>
    rcases hplan hissue with hplan | hsame
    · exact hplan
    · rw [hsame] at hissue ⊢
      exact h hissue
  | issued rand hpc _ hblocks _ =>
    have hplan := h hpc
    unfold Planned at hplan ⊢
    rw [hblocks]
    exact hplan

end Steps

/-! ### Walks that stay inside -/

/-- The walks that never leave a range of more than 128 blocks. -/
def SafeWalk (conf : NvgenConf) : Prop :=
  match conf.walk with
  | .seq => conf.nvbatch.toNat ≤ 2 ∧ (conf.lbaStart = 0 ∨ conf.lbaEnd.toNat ≤ 2 ^ 32 + 1) ∨
      conf.lbaStart = 0 ∧ 2 ^ 32 + conf.nvbatch.toNat ≤ conf.lbaEnd.toNat + 1
  | .random =>
    conf.lbaStart.toNat + min (2 ^ 31 - 1) (conf.lbaEnd.toNat - conf.lbaStart.toNat - 2) < 2 ^ 32
  | .same => True

structure WalkInv (conf : NvgenConf) (s : NvmeState) : Prop where
  plan : s.unvme.pc = .issue → Planned conf s.unvme
  lba : conf.walk ≠ .same →
    conf.lbaStart.toNat ≤ s.unvme.lba.toNat ∧ s.unvme.lba.toNat + 2 ≤ conf.lbaEnd.toNat
  reads : ∀ read ∈ s.reads, ReadsRange conf read

section Safe

variable {conf : NvgenConf} (hlong : conf.lbaStart.toNat + 128 < conf.lbaEnd.toNat)
  (hle : conf.nvbatch.toNat ≤ 128) (hsafe : SafeWalk conf)

include hlong hsafe in
lemma lbaStart_lt (hwalk : conf.walk ≠ .same) : conf.lbaStart.toNat < 2 ^ 32 := by
  unfold SafeWalk at hsafe
  split at hsafe
  · rcases hsafe with ⟨-, hzero | hend⟩ | ⟨hzero, -⟩
    · rw [hzero]
      decide
    · omega
    · rw [hzero]
      decide
  · omega
  · rename_i hsame
    exact absurd hsame hwalk

include hlong hle hsafe in
/-- The look-ahead leaves two blocks, and 32 bits hold the LBA or the walk falls back to 0. -/
lemma seq_safe {lba n : BitVec 32} (hwalk : conf.walk = .seq) (hn : n.toNat ≤ conf.nvbatch.toNat)
    (hlo : conf.lbaStart.toNat ≤ lba.toNat) (hhi : lba.toNat + 2 ≤ conf.lbaEnd.toNat)
    {rand : BitVec 31} {next : BitVec 64}
    (hnext : nextLba .seq (lba.setWidth 64) conf.lbaStart conf.lbaEnd (n.setWidth 64) rand = some next) :
    conf.lbaStart.toNat ≤ (next.setWidth 32).toNat ∧
      (next.setWidth 32).toNat + 2 ≤ conf.lbaEnd.toNat := by
  have hstart := lbaStart_lt hlong hsafe (by rw [hwalk]; decide)
  have hlba := lba.isLt
  have hto : (lba.setWidth 64).toNat = lba.toNat := by
    rw [BitVec.toNat_setWidth]
    omega
  have hton : (n.setWidth 64).toNat = n.toNat := by
    rw [BitVec.toNat_setWidth]
    omega
  have htwo : (n.setWidth 64 <<< 1).toNat = 2 * n.toNat := by
    rw [Word.toNat_shiftLeft_one _ (by omega), hton]
  unfold nextLba at hnext
  rw [Option.some.injEq] at hnext
  rw [BitVec.toNat_setWidth]
  split at hnext
  · rename_i hmore
    rw [BitVec.lt_def, BitVec.toNat_add, hto, htwo, Nat.mod_eq_of_lt (by omega)] at hmore
    have hsum : next.toNat = lba.toNat + n.toNat := by
      rw [← hnext, BitVec.toNat_add, hto, hton, Nat.mod_eq_of_lt (by omega)]
    unfold SafeWalk at hsafe
    rw [hwalk] at hsafe
    rw [hsum]
    rcases hsafe with ⟨-, hzero | hend⟩ | ⟨hzero, -⟩
    · have hz : conf.lbaStart.toNat = 0 := congrArg BitVec.toNat hzero
      omega
    · omega
    · have hz : conf.lbaStart.toNat = 0 := congrArg BitVec.toNat hzero
      omega
  · rw [← hnext]
    omega

/-- A random LBA, before it is cut to 32 bits. -/
lemma random_next {lba lbaStart lbaEnd next : BitVec 64} (hlong : lbaStart.toNat + 2 < lbaEnd.toNat)
    {rand : BitVec 31} (hnext : nextLba .random lba lbaStart lbaEnd 1 rand = some next) :
    next.toNat = lbaStart.toNat + rand.toNat % (lbaEnd.toNat - lbaStart.toNat - 1) := by
  have hrange : (lbaEnd - lbaStart - 1).toNat = lbaEnd.toNat - lbaStart.toNat - 1 :=
    toNat_random_range (show lbaStart.toNat + 1 ≤ lbaEnd.toNat by omega)
  have hmod := Nat.mod_lt rand.toNat (show 0 < lbaEnd.toNat - lbaStart.toNat - 1 by omega)
  have hmax := lbaEnd.isLt
  have hrand : (rand.setWidth 64).toNat = rand.toNat := by
    rw [BitVec.toNat_setWidth]
    omega
  unfold nextLba at hnext
  dsimp only at hnext
  split at hnext
  · cases hnext
  · rw [Option.some.injEq] at hnext
    rw [← hnext, BitVec.toNat_add, BitVec.toNat_umod, hrand, hrange, Nat.mod_eq_of_lt (by omega)]
    omega

include hlong hsafe in
lemma random_safe {lba : BitVec 64} (hwalk : conf.walk = .random) {rand : BitVec 31}
    {next : BitVec 64} (hnext : nextLba .random lba conf.lbaStart conf.lbaEnd 1 rand = some next) :
    conf.lbaStart.toNat ≤ (next.setWidth 32).toNat ∧
      (next.setWidth 32).toNat + 2 ≤ conf.lbaEnd.toNat := by
  have hto := random_next (by omega) hnext
  have hlt := Nat.mod_lt rand.toNat (show 0 < conf.lbaEnd.toNat - conf.lbaStart.toNat - 1 by omega)
  have hle := Nat.mod_le rand.toNat (conf.lbaEnd.toNat - conf.lbaStart.toNat - 1)
  have hrand := rand.isLt
  unfold SafeWalk at hsafe
  rw [hwalk] at hsafe
  rw [BitVec.toNat_setWidth, hto]
  omega

lemma planned_ne_same {t : UnvmeThread} (h : Planned conf t) : conf.walk ≠ .same := by
  rcases h with ⟨hw, -⟩ | ⟨hw, -⟩ <;> rw [hw] <;> decide

include hlong hle hsafe in
lemma next_safe {t : UnvmeThread} (hplan : Planned conf t) (hlo : conf.lbaStart.toNat ≤ t.lba.toNat)
    (hhi : t.lba.toNat + 2 ≤ conf.lbaEnd.toNat) {rand : BitVec 31} {next : BitVec 64}
    (hnext : nextLba conf.walk (t.lba.setWidth 64) conf.lbaStart conf.lbaEnd
      (t.nblocks.setWidth 64) rand = some next) :
    conf.lbaStart.toNat ≤ (next.setWidth 32).toNat ∧
      (next.setWidth 32).toNat + 2 ≤ conf.lbaEnd.toNat := by
  rcases hplan with ⟨hw, hn⟩ | ⟨hw, hn, -⟩
  · rw [hw] at hnext
    exact seq_safe hlong hle hsafe hw hn hlo hhi hnext
  · rw [hw, hn] at hnext
    exact random_safe hlong hsafe hw hnext

include hsafe in
/-- The next read fits as well. -/
lemma room_safe {t : UnvmeThread} (hplan : Planned conf t)
    (hhi : t.lba.toNat + 2 ≤ conf.lbaEnd.toNat) :
    t.lba.toNat + t.nblocks.toNat ≤ conf.lbaEnd.toNat := by
  have hlba := t.lba.isLt
  rcases hplan with ⟨hw, hn⟩ | ⟨-, hn, -⟩
  · unfold SafeWalk at hsafe
    rw [hw] at hsafe
    rcases hsafe with ⟨htwo, -⟩ | ⟨-, hend⟩ <;> omega
  · have hone : t.nblocks.toNat = 1 := congrArg BitVec.toNat hn
    omega

include hlong hsafe in
lemma walkInv_init : WalkInv conf (nvmeInit conf) := by
  refine ⟨fun hpc => (by cases hpc), fun hwalk => ?_, by simp [nvmeInit]⟩
  have hstart := lbaStart_lt hlong hsafe hwalk
  have hlba : (nvmeInit conf).unvme.lba.toNat = conf.lbaStart.toNat :=
    (BitVec.toNat_setWidth _ _).trans (Nat.mod_eq_of_lt hstart)
  omega

include hlong hle hsafe in
lemma walkInv_step (s : NvmeState) (op : NvmeOp) (s' : NvmeState) (h : WalkInv conf s)
    (hs : nvmeStep conf s op = some s') : WalkInv conf s' := by
  have hplan := planned_step s op s' h.plan hs
  cases nvmeStep_walk hs with
  | silent hlba hreads _ => exact ⟨hplan, hlba ▸ h.lba, hreads ▸ h.reads⟩
  | issued rand hpc hnext hblocks hreads =>
    obtain ⟨next, hnext, hlba⟩ := Option.map_eq_some_iff.mp hnext
    have hissue := h.plan hpc
    obtain ⟨hlo, hhi⟩ := h.lba (planned_ne_same hissue)
    refine ⟨hplan, fun _ => ?_, ?_⟩
    · rw [← hlba]
      exact next_safe hlong hle hsafe hissue hlo hhi hnext
    · intro read hread
      rw [hreads] at hread
      rcases List.mem_append.mp hread with hread | hread
      · exact h.reads read hread
      · rw [List.mem_singleton.mp hread]
        have hto : (s.unvme.lba.setWidth 64).toNat = s.unvme.lba.toNat :=
          BitVec.toNat_setWidth_of_le (by decide)
        unfold ReadsRange WalkInside
        rw [hto]
        exact ⟨hlo, room_safe hsafe hissue hhi⟩

end Safe

/-! ### Passes of one read -/

/-- The NVMe thread between passes. -/
structure Ready (s : NvmeState) : Prop where
  pc : s.unvme.pc = .top
  mask : s.ring.mask = 255
  head_lt : s.ring.head.toNat < 256

def atTail (s : NvmeState) (tail : BitVec 32) : NvmeState :=
  { s with ring := { s.ring with tail := tail } }

def atRead (s : NvmeState) (n : BitVec 32) : NvmeState :=
  { s with unvme := { passStart s.ring s.unvme 1 n with pc := .issue } }

def atPoll (s : NvmeState) (lba : BitVec 32) : NvmeState :=
  ⟨s.ring, { issued s.ring s.unvme lba with pc := .poll, b := 0 },
    s.reads ++ [⟨s.unvme.head, s.unvme.lba, s.unvme.nblocks⟩]⟩

def atPublish (s : NvmeState) : NvmeState :=
  { s with unvme := { s.unvme with
      pc := .publish, b := 1, nbytes := s.unvme.nbytes + (s.unvme.nblocks * 4096).setWidth 64 } }

def atTop (s : NvmeState) : NvmeState :=
  { s with ring := { s.ring with head := s.unvme.head }, unvme := { s.unvme with pc := .top } }

section Passes

variable {conf : NvgenConf} {s : NvmeState} {n : BitVec 32} {rand : BitVec 31} {next : BitVec 64}

lemma nvmeStep_consume (hmask : s.ring.mask = 255) {tail : BitVec 32} (htail : tail.toNat < 256) :
    nvmeStep conf s (.consume (tail - s.ring.tail)) = some (atTail s tail) := by
  have hback : s.ring.tail + (tail - s.ring.tail) = tail := by bv_omega
  have hlow : tail &&& 255 = tail := by
    apply BitVec.eq_of_toNat_eq
    exact (Word.toNat_and_low tail 8 (by decide)).trans (Nat.mod_eq_of_lt htail)
  simp only [nvmeStep, hback, hmask, hlow, atTail]

lemma nvmeStep_avail (hpc : s.unvme.pc = .top) (havail : ¬s.ring.writeAvail < 2)
    (hplan : passPlan conf s.ring.writeAvail = some (1, n)) :
    nvmeStep conf s (.unvme .avail) = some (atRead s n) := by
  unfold nvmeStep unvmeStep
  rw [hpc]
  dsimp only
  rw [if_neg havail, hplan]
  simp [afterIssue, atRead, passStart]

lemma nvmeStep_aread (hpc : s.unvme.pc = .issue) (hbatch : s.unvme.batch = 1) (hb : s.unvme.b = 0)
    (hnext : nextLba conf.walk (s.unvme.lba.setWidth 64) conf.lbaStart conf.lbaEnd
      (s.unvme.nblocks.setWidth 64) rand =
      some next) :
    nvmeStep conf s (.unvme (.aread rand)) = some (atPoll s (next.setWidth 32)) := by
  unfold nvmeStep unvmeStep
  rw [hpc]
  dsimp only
  rw [hnext]
  simp [afterIssue, atPoll, issued, hbatch, hb]

lemma nvmeStep_apoll (hpc : s.unvme.pc = .poll) (hbatch : s.unvme.batch = 1) (hb : s.unvme.b = 0) :
    nvmeStep conf s (.unvme (.apoll 0)) = some (atPublish s) := by
  unfold nvmeStep unvmeStep
  rw [hpc]
  simp [afterPoll, atPublish, hbatch, hb]

lemma nvmeStep_publish (hpc : s.unvme.pc = .publish) :
    nvmeStep conf s (.unvme .publish) = some (atTop s) := by
  unfold nvmeStep unvmeStep
  rw [hpc]
  simp [atTop]

/-- A pass of one read that finds the reader at `tail`. -/
lemma nvme_pass (h : Ready s) {tail : BitVec 32} (htail : tail.toNat < 256)
    (havail : ¬(atTail s tail).ring.writeAvail < 2)
    (hplan : passPlan conf (atTail s tail).ring.writeAvail = some (1, n))
    (hnext : nextLba conf.walk (s.unvme.lba.setWidth 64) conf.lbaStart conf.lbaEnd
      (n.setWidth 64) rand = some next) :
    ∃ ops s', exec (nvmeStep conf) s ops = some s' ∧ Ready s' ∧ s'.unvme.lba = next.setWidth 32 ∧
      ⟨s.ring.head, s.unvme.lba, n⟩ ∈ s'.reads := by
  refine ⟨[.consume (tail - s.ring.tail), .unvme .avail, .unvme (.aread rand),
    .unvme (.apoll 0), .unvme .publish],
    atTop (atPublish (atPoll (atRead (atTail s tail) n) (next.setWidth 32))), ?_, ⟨rfl, h.mask, ?_⟩,
    rfl, ?_⟩
  · apply (exec_cons (nvmeStep_consume h.mask htail)).mpr
    apply (exec_cons (nvmeStep_avail (s := atTail s tail) h.pc havail hplan)).mpr
    apply (exec_cons (nvmeStep_aread (s := atRead (atTail s tail) n) rfl rfl rfl hnext)).mpr
    apply (exec_cons (nvmeStep_apoll rfl rfl rfl)).mpr
    apply (exec_cons (nvmeStep_publish rfl)).mpr
    rfl
  · have hhead := toNat_writeNextBatch (r := (atTail s tail).ring) h.mask s.ring.head (n <<< 1)
    have hlt := Nat.mod_lt (s.ring.head.toNat + (n <<< 1).toNat) (show 0 < 256 by decide)
    rw [← hhead] at hlt
    exact hlt
  · exact List.mem_append_right _ (List.mem_singleton.mpr rfl)

lemma toNat_atTail {tail : BitVec 32} (h : Ready s) (htail : tail.toNat < 256) :
    (atTail s tail).ring.writeAvail.toNat =
      if tail.toNat < s.ring.head.toNat then 255 - (s.ring.head.toNat + 256 - tail.toNat) % 256
      else 256 - (s.ring.head.toNat + 256 - tail.toNat) % 256 := by
  rw [toNat_writeAvail (r := (atTail s tail).ring) h.head_lt htail]
  unfold freeSlots usedSlots atTail
  dsimp only
  split <;> omega

/-- With two or three free slots a pass reads one block. -/
lemma passPlan_one {space : BitVec 32} (hpos : 1 ≤ conf.nvbatch.toNat) (hwalk : conf.walk ≠ .same)
    (hspace : space.toNat / 2 = 1) : passPlan conf space = some (1, 1) := by
  have hhalf : (space &&& ~~~1#32) >>> 1 = 1 := by
    apply BitVec.eq_of_toNat_eq
    have hone : (1 : BitVec 32).toNat = 1 := rfl
    rw [Word.toNat_shiftRight_div, Word.toNat_and_not_one, hone]
    omega
  have hbatch : ¬(1 : BitVec 32) > conf.nvbatch := by
    intro hgt
    have hlt : conf.nvbatch.toNat < 1 := hgt
    omega
  unfold passPlan
  dsimp only
  rw [hhalf, if_neg hbatch]
  split
  · rfl
  · rfl
  · rename_i hsame
    exact absurd hsame hwalk

/-- With all slots free a sequential pass reads `nvbatch` blocks. -/
lemma passPlan_all (hle : conf.nvbatch.toNat ≤ 128) (hwalk : conf.walk = .seq) {space : BitVec 32}
    (hspace : space.toNat = 256) : passPlan conf space = some (1, conf.nvbatch) := by
  have hhalf : ((space &&& ~~~1#32) >>> 1).toNat = 128 := by
    rw [Word.toNat_shiftRight_div, Word.toNat_and_not_one]
    omega
  unfold passPlan
  dsimp only
  rw [hwalk]
  dsimp only
  split
  · rfl
  · rename_i hgt
    have hge : ¬conf.nvbatch.toNat < ((space &&& ~~~1#32) >>> 1).toNat := hgt
    have heq : (space &&& ~~~1#32) >>> 1 = conf.nvbatch := BitVec.eq_of_toNat_eq (by omega)
    rw [heq]

/-- A pass of one block is always possible. -/
lemma small_pass (h : Ready s) (hpos : 1 ≤ conf.nvbatch.toNat) (hwalk : conf.walk ≠ .same)
    (hnext : nextLba conf.walk (s.unvme.lba.setWidth 64) conf.lbaStart conf.lbaEnd 1 rand = some next) :
    ∃ ops s', exec (nvmeStep conf) s ops = some s' ∧ Ready s' ∧ s'.unvme.lba = next.setWidth 32 ∧
      ⟨s.ring.head, s.unvme.lba, 1⟩ ∈ s'.reads := by
  -- three slots ahead of the writer leave two or three free, whether or not the reader has wrapped
  have htail : (BitVec.ofNat 32 ((s.ring.head.toNat + 3) % 256)).toNat =
      (s.ring.head.toNat + 3) % 256 := by
    rw [BitVec.toNat_ofNat]
    omega
  have hhead := h.head_lt
  have hfree :=
    toNat_atTail h (show (BitVec.ofNat 32 ((s.ring.head.toNat + 3) % 256)).toNat < 256 by omega)
  rw [htail] at hfree
  have hhalf :
      (atTail s (BitVec.ofNat 32 ((s.ring.head.toNat + 3) % 256))).ring.writeAvail.toNat / 2 = 1 := by
    rw [hfree]
    split <;> omega
  apply nvme_pass h (by omega) ?_ (passPlan_one hpos hwalk hhalf) hnext
  rw [BitVec.lt_def]
  have htwo : (2 : BitVec 32).toNat = 2 := rfl
  omega

/-- So is a sequential pass of `nvbatch` blocks. -/
lemma full_pass (h : Ready s) (hle : conf.nvbatch.toNat ≤ 128) (hwalk : conf.walk = .seq) :
    ∃ ops s', exec (nvmeStep conf) s ops = some s' ∧
      ⟨s.ring.head, s.unvme.lba, conf.nvbatch⟩ ∈ s'.reads := by
  have hfree := toNat_atTail h h.head_lt
  have hall : (atTail s s.ring.head).ring.writeAvail.toNat = 256 := by
    rw [hfree, if_neg (lt_irrefl _)]
    omega
  obtain ⟨next, hnext⟩ : ∃ next, nextLba conf.walk (s.unvme.lba.setWidth 64) conf.lbaStart conf.lbaEnd
      (conf.nvbatch.setWidth 64) 0 = some next := by
    rw [hwalk]
    exact ⟨_, rfl⟩
  obtain ⟨ops, s', hrun, -, -, hread⟩ := nvme_pass h h.head_lt (by rw [BitVec.lt_def, hall]; decide)
    (passPlan_all hle hwalk hall) hnext
  exact ⟨ops, s', hrun, hread⟩

end Passes

/-! ### Walks that leave the range -/

/-- Every read of every run is inside the range of the thread. -/
def ReadsInRange (conf : NvgenConf) : Prop :=
  ∀ ops s, exec (nvmeStep conf) (nvmeInit conf) ops = some s → ∀ read ∈ s.reads, ReadsRange conf read

section Unsafe

variable {conf : NvgenConf} (hlong : conf.lbaStart.toNat + 128 < conf.lbaEnd.toNat)
  (hpos : 1 ≤ conf.nvbatch.toNat) (hle : conf.nvbatch.toNat ≤ 128)

lemma ready_init : Ready (nvmeInit conf) :=
  ⟨rfl, rfl, show (0 : BitVec 32).toNat < 256 by decide⟩

include hlong in
/-- In a range of more than 128 blocks `next_lba` always returns. -/
lemma nextLba_one (walk : WalkMode) (lba : BitVec 64) (rand : BitVec 31) :
    ∃ next, nextLba walk lba conf.lbaStart conf.lbaEnd 1 rand = some next := by
  cases walk with
  | seq => exact ⟨_, rfl⟩
  | random =>
    obtain ⟨hne, -⟩ :=
      random_inside rand (show conf.lbaStart.toNat + (1 : BitVec 64).toNat < conf.lbaEnd.toNat from
      lt_trans (Nat.add_lt_add_left (by decide) _) hlong)
    exact ⟨_, by rw [nextLba, if_neg hne]⟩
  | same => exact ⟨_, rfl⟩

include hlong hpos in
/-- A thread between passes reads next where its walk is. -/
lemma lba_inside_of_reads (h : ReadsInRange conf) (hwalk : conf.walk ≠ .same) {ops : List NvmeOp}
    {s : NvmeState} (hrun : exec (nvmeStep conf) (nvmeInit conf) ops = some s) (hs : Ready s) :
    conf.lbaStart.toNat ≤ s.unvme.lba.toNat := by
  obtain ⟨next, hnext⟩ := nextLba_one hlong conf.walk (s.unvme.lba.setWidth 64) 0
  obtain ⟨ops', s', hrun', -, -, hread⟩ := small_pass hs hpos hwalk hnext
  have hin := (h _ s' (exec_append hrun hrun') _ hread).1
  rwa [BitVec.toNat_setWidth_of_le (by decide)] at hin

include hlong hpos in
lemma lbaStart_lt_of_reads (h : ReadsInRange conf) (hwalk : conf.walk ≠ .same) :
    conf.lbaStart.toNat < 2 ^ 32 := by
  have hrun : exec (nvmeStep conf) (nvmeInit conf) [] = some (nvmeInit conf) := rfl
  exact lt_of_le_of_lt (lba_inside_of_reads hlong hpos h hwalk hrun ready_init) (BitVec.isLt _)

lemma seq_one (lbaStart : BitVec 64) {lba : BitVec 32} {lbaEnd : BitVec 64}
    (hmore : lba.toNat + 2 < lbaEnd.toNat) (rand : BitVec 31) :
    ∃ next, nextLba .seq (lba.setWidth 64) lbaStart lbaEnd 1 rand = some next ∧
      next.toNat = lba.toNat + 1 := by
  have hlba := lba.isLt
  have hto : (lba.setWidth 64).toNat = lba.toNat := BitVec.toNat_setWidth_of_le (by decide)
  have hahead : lba.setWidth 64 + ((1 : BitVec 64) <<< 1) < lbaEnd := by
    have htwo : ((1 : BitVec 64) <<< 1).toNat = 2 := rfl
    rw [BitVec.lt_def, BitVec.toNat_add, hto, htwo]
    omega
  refine ⟨lba.setWidth 64 + 1, by rw [nextLba, if_pos hahead], ?_⟩
  have hone : (1 : BitVec 64).toNat = 1 := rfl
  rw [BitVec.toNat_add, hto, hone]
  omega

include hpos in
/-- In single blocks a sequential walk reaches every LBA up to two before the end, as far as
32 bits go. -/
lemma seq_reaches (hwalk : conf.walk = .seq) (hstart : conf.lbaStart.toNat < 2 ^ 32) {k : Nat}
    (hend : conf.lbaStart.toNat + k + 2 ≤ conf.lbaEnd.toNat)
    (hmax : conf.lbaStart.toNat + k < 2 ^ 32) :
    ∃ ops s, exec (nvmeStep conf) (nvmeInit conf) ops = some s ∧ Ready s ∧
      s.unvme.lba.toNat = conf.lbaStart.toNat + k := by
  induction k with
  | zero =>
    exact ⟨[], _, rfl, ready_init, (BitVec.toNat_setWidth _ _).trans (Nat.mod_eq_of_lt hstart)⟩
  | succ k ih =>
    obtain ⟨ops, s, hrun, hs, hlba⟩ := ih (by omega) (by omega)
    have hmore : s.unvme.lba.toNat + 2 < conf.lbaEnd.toNat := by omega
    obtain ⟨next, hnext, hto⟩ := seq_one conf.lbaStart hmore 0
    rw [← hwalk] at hnext
    obtain ⟨ops', s', hrun', hs', hlba', -⟩ := small_pass hs hpos (by rw [hwalk]; decide) hnext
    refine ⟨ops ++ ops', s', exec_append hrun hrun', hs', ?_⟩
    rw [hlba', BitVec.toNat_setWidth, hto, Nat.mod_eq_of_lt (by omega)]
    omega

include hlong hpos hle in
/-- A full pass is possible from every LBA that single blocks reach. -/
lemma full_pass_of_reads (h : ReadsInRange conf) (hwalk : conf.walk = .seq) {lba : Nat}
    (hlo : conf.lbaStart.toNat ≤ lba) (hhi : lba + 2 ≤ conf.lbaEnd.toNat) (hmax : lba < 2 ^ 32) :
    lba + conf.nvbatch.toNat ≤ conf.lbaEnd.toNat := by
  have hstart := lbaStart_lt_of_reads hlong hpos h (by rw [hwalk]; decide)
  obtain ⟨ops, s, hrun, hs, hlba⟩ :=
    seq_reaches (k := lba - conf.lbaStart.toNat) hpos hwalk hstart (by omega) (by omega)
  obtain ⟨ops', s', hrun', hread⟩ := full_pass hs hle hwalk
  have hin := (h _ s' (exec_append hrun hrun') _ hread).2
  rw [BitVec.toNat_setWidth_of_le (by decide)] at hin
  dsimp only at hin
  omega

include hlong hpos in
/-- A walk that reaches the end of 32 bits goes on at LBA 0. -/
lemma wrap_of_reads (h : ReadsInRange conf) (hwalk : conf.walk = .seq) :
    conf.lbaStart = 0 ∨ conf.lbaEnd.toNat ≤ 2 ^ 32 + 1 := by
  have hne : conf.walk ≠ .same := by
    rw [hwalk]
    decide
  have hstart := lbaStart_lt_of_reads hlong hpos h hne
  by_contra hboth
  obtain ⟨hzero, hend⟩ := not_or.mp hboth
  obtain ⟨ops, s, hrun, hs, hlba⟩ :=
    seq_reaches (k := 2 ^ 32 - 1 - conf.lbaStart.toNat) hpos hwalk hstart (by omega) (by omega)
  have hmore : s.unvme.lba.toNat + 2 < conf.lbaEnd.toNat := by omega
  obtain ⟨next, hnext, hto⟩ := seq_one conf.lbaStart hmore 0
  rw [← hwalk] at hnext
  obtain ⟨ops', s', hrun', hs', hlba', -⟩ := small_pass hs hpos hne hnext
  have hin := lba_inside_of_reads hlong hpos h hne (exec_append hrun hrun') hs'
  rw [hlba', BitVec.toNat_setWidth, hto] at hin
  have hback : conf.lbaStart.toNat = 0 := by omega
  exact hzero (BitVec.eq_of_toNat_eq hback)

include hlong hpos hle in
lemma seq_safe_of_reads (h : ReadsInRange conf) (hwalk : conf.walk = .seq) : SafeWalk conf := by
  unfold SafeWalk
  rw [hwalk]
  dsimp only
  rcases wrap_of_reads hlong hpos h hwalk with hzero | hend
  · have hz : conf.lbaStart.toNat = 0 := congrArg BitVec.toNat hzero
    by_cases hshort : conf.lbaEnd.toNat - 2 < 2 ^ 32
    · have hfull : conf.lbaEnd.toNat - 2 + conf.nvbatch.toNat ≤ conf.lbaEnd.toNat :=
        full_pass_of_reads hlong hpos hle h hwalk (by omega) (by omega) hshort
      exact Or.inl ⟨by omega, Or.inl hzero⟩
    · have hfull : 2 ^ 32 - 1 + conf.nvbatch.toNat ≤ conf.lbaEnd.toNat :=
        full_pass_of_reads hlong hpos hle h hwalk (by omega) (by omega) (by omega)
      exact Or.inr ⟨hzero, by omega⟩
  · have hfull : conf.lbaEnd.toNat - 2 + conf.nvbatch.toNat ≤ conf.lbaEnd.toNat :=
      full_pass_of_reads hlong hpos hle h hwalk (by omega) (by omega) (by omega)
    exact Or.inl ⟨by omega, Or.inr hend⟩

include hlong hpos in
lemma random_safe_of_reads (h : ReadsInRange conf)
    (hwalk : conf.walk = .random) : SafeWalk conf := by
  have hne : conf.walk ≠ .same := by
    rw [hwalk]
    decide
  have hstart := lbaStart_lt_of_reads hlong hpos h hne
  obtain ⟨rand, hrand⟩ : ∃ rand : BitVec 31,
      rand.toNat = min (2 ^ 31 - 1) (conf.lbaEnd.toNat - conf.lbaStart.toNat - 2) :=
    ⟨BitVec.ofNat 31 _, (BitVec.toNat_ofNat _ _).trans (Nat.mod_eq_of_lt (by omega))⟩
  -- the largest random LBA, and the read after it
  obtain ⟨next, hnext⟩ := nextLba_one hlong conf.walk ((nvmeInit conf).unvme.lba.setWidth 64) rand
  obtain ⟨ops, s, hrun, hs, hlba, -⟩ := small_pass ready_init hpos hne hnext
  have hin := lba_inside_of_reads hlong hpos h hne hrun hs
  rw [hwalk] at hnext
  have hto := random_next (by omega) hnext
  have hmod : rand.toNat % (conf.lbaEnd.toNat - conf.lbaStart.toNat - 1) = rand.toNat :=
    Nat.mod_eq_of_lt (by omega)
  rw [hlba, BitVec.toNat_setWidth, hto, hmod] at hin
  unfold SafeWalk
  rw [hwalk]
  dsimp only
  omega

end Unsafe

/-- The reads stay in a range of more than 128 blocks exactly when the walk is safe. -/
theorem nvgen_reads_inside_iff (conf : NvgenConf)
    (hlong : conf.lbaStart.toNat + 128 < conf.lbaEnd.toNat) (hpos : 1 ≤ conf.nvbatch.toNat)
    (hle : conf.nvbatch.toNat ≤ 128) : ReadsInRange conf ↔ SafeWalk conf := by
  constructor
  · intro h
    cases hwalk : conf.walk with
    | seq => exact seq_safe_of_reads hlong hpos hle h hwalk
    | random => exact random_safe_of_reads hlong hpos h hwalk
    | same =>
      unfold SafeWalk
      rw [hwalk]
      trivial
  · intro hsafe ops s hrun
    exact (exec_invariant (walkInv_step hlong hle hsafe) (walkInv_init hlong hsafe) hrun).reads

/-- Reads of up to two blocks from LBA 0 to 150. -/
theorem nvgen_reads_inside_small : ReadsInRange ⟨4, 2, .seq, 0, 150⟩ :=
  (nvgen_reads_inside_iff ⟨4, 2, .seq, 0, 150⟩ (by decide) (by decide) (by decide)).mpr
    (Or.inl ⟨by decide, Or.inl rfl⟩)

/-- With `nvbatch` 64 the passes of this run read 64, 63, 2 and 64 blocks; the last one goes from
129 to 193. And a range behind `2 ^ 32` is read from LBA 0 on. -/
theorem nvgen_reads_outside :
    ((exec (nvmeStep ⟨4, 64, .seq, 0, 192⟩) (nvmeInit ⟨4, 64, .seq, 0, 192⟩)
        [.unvme .avail, .unvme (.aread 0), .unvme (.apoll 0), .unvme .publish,
          .unvme .avail, .unvme (.aread 0), .unvme (.apoll 0), .unvme .publish, .consume 4,
          .unvme .avail, .unvme (.aread 0), .unvme (.apoll 0), .unvme .publish, .consume 254,
          .unvme .avail, .unvme (.aread 0)]).map NvmeState.reads =
      some [⟨0, 0, 64⟩, ⟨128, 64, 63⟩, ⟨254, 127, 2⟩, ⟨2, 129, 64⟩] ∧
      ¬ReadsRange ⟨4, 64, .seq, 0, 192⟩ ⟨2, 129, 64⟩) ∧
    ((exec (nvmeStep ⟨4, 1, .seq, 0x100000000, 0x100001000⟩) (nvmeInit ⟨4, 1, .seq, 0x100000000, 0x100001000⟩)
        [.unvme .avail, .unvme (.aread 0)]).map NvmeState.reads = some [⟨0, 0, 1⟩] ∧
      ¬ReadsRange ⟨4, 1, .seq, 0x100000000, 0x100001000⟩ ⟨0, 0, 1⟩) := by
  refine ⟨⟨by decide +kernel, by decide⟩, ⟨by decide +kernel, by decide⟩⟩

end Libpop.Proofs

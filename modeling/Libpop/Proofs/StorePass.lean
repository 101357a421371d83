import Libpop.Proofs.BufferAllocation
import Libpop.Proofs.StoredFrames

/-!
# The frames of one pass of store

A pass builds `batch` frames of 2048 bytes, while its buffer and its write are counted in
blocks, rounded down. A batch that is not a whole number of blocks has frames beyond the end
of both.
-/

namespace Libpop.Proofs
open Bytes Store

/-- The frames of a pass are in the buffer, which is all that a pass writes to, and in the blocks
that are written, so that a pass that succeeds has every frame it counts on the disk. -/
structure FramesFit (p : StoreParam) : Prop where
  buffer : ∀ addr mem mem' malloc pbuf, storeAlloc p addr mem malloc = some (mem', .ok pbuf) →
    (∀ b < p.batch.toNat, frameSize * (b + 1) ≤ pbuf.size.toNat) ∧
      ∀ lba m i, pbuf.size.toNat ≤ i → buildFrames p lba m p.batch.toNat i = m i
  blocks : ∀ b < p.batch.toNat, frameSize * (b + 1) ≤ p.nblocks.toNat * 2 ^ p.blockshift
  disk : ∀ s t, storeStep p s 0 = some t → t.num = s.num + p.batch.setWidth 64 ∧
    ∀ b < p.batch.toNat, ∀ i < frameSize,
      t.disk (s.lba.toNat * 2 ^ p.blockshift + frameSize * b + i) = t.pbuf (frameSize * b + i)

lemma buildFrames_outside (p : StoreParam) (lba : BitVec 64) (m : Mem) (n : Nat) {i : Nat}
    (hi : frameSize * n ≤ i) : buildFrames p lba m n i = m i := by
  have hlen := p.pktlen_le
  induction n with
  | zero => rfl
  | succ n ih =>
    rw [Nat.mul_succ] at hi
    rw [buildFrames, buildPkt_outside (by unfold frameSize; omega) (.inr hi)]
    exact ih (by omega)

section Sizes

variable {p : StoreParam} (hint : 0 ≤ p.nblocks.toInt)

include hint

lemma toNat_poplen : p.poplen.toNat = p.nblocks.toNat * 2 ^ p.blockshift := by
  have hle := nblocks_bytes_le hint
  have hlow := (nblocks_nonneg_iff p).mp hint
  have hshift : (p.nblocks <<< p.blockshift).toNat = p.nblocks.toNat * 2 ^ p.blockshift := by
    rw [Word.toNat_shiftLeft_mul]
    exact Nat.mod_eq_of_lt (by omega)
  unfold StoreParam.poplen
  rw [Word.toNat_signExtend_of_lt (by decide) (by omega), hshift]

lemma poplen_lt : p.poplen.toNat < 2 ^ 31 := by
  rw [toNat_poplen hint]
  exact (nblocks_bytes_le hint).trans_lt ((nblocks_nonneg_iff p).mp hint)

lemma storeAlloc_size {addr : BitVec 64} {mem mem' : PopMem} {malloc : Bool} {pbuf : Pbuf}
    (h : storeAlloc p addr mem malloc = some (mem', .ok pbuf)) :
    pbuf.size.toNat = (p.nblocks.toNat * 2 ^ p.blockshift + 4095) / 4096 * 4096 := by
  have hlow := poplen_lt hint
  have hreach : p.poplen.toNat ≤ 2 ^ 64 - 4096 := by omega
  rw [(popBufAllocPut_fresh hreach h).size, toNat_poplen hint]

end Sizes

/-- For batches whose sizes fit an `int`: the frames of a pass fit exactly when the batch is a whole
number of blocks. -/
theorem store_pass_fits_iff {p : StoreParam} (hpos : 1 ≤ p.batch.toNat)
    (hmax : p.batch.toNat ≤ 2 ^ 19) : FramesFit p ↔ 2 ^ p.blockshift ∣ 2048 * p.batch.toNat := by
  have hfit : 2048 * p.batch.toNat < 2 ^ 31 := by omega
  have hint := nblocks_nonneg hfit
  have hblocks : p.nblocks.toNat = 2048 * p.batch.toNat / 2 ^ p.blockshift := by
    rw [toNat_storeBlocks hint, toNat_buflen hfit]
  have hle := nblocks_bytes_le hint
  rw [toNat_buflen hfit] at hle
  constructor
  · intro h
    have hlast := h.blocks (p.batch.toNat - 1) (by omega)
    have heq : 2048 * p.batch.toNat / 2 ^ p.blockshift * 2 ^ p.blockshift =
        2048 * p.batch.toNat := by
      rw [← hblocks]
      unfold frameSize at hlast
      omega
    exact Dvd.intro_left _ heq
  · intro hdvd
    have hbytes : p.nblocks.toNat * 2 ^ p.blockshift = frameSize * p.batch.toNat := by
      rw [hblocks]
      exact Nat.div_mul_cancel hdvd
    have hframe : ∀ b < p.batch.toNat, frameSize * (b + 1) ≤ frameSize * p.batch.toNat :=
      fun b hb => Nat.mul_le_mul_left _ hb
    refine ⟨?_, ?_, ?_⟩
    · intro addr mem mem' malloc pbuf ha
      have hsize : frameSize * p.batch.toNat ≤ pbuf.size.toNat := by
        rw [storeAlloc_size hint ha, hbytes]
        omega
      exact ⟨fun b hb => (hframe b hb).trans hsize,
        fun lba m i hi => buildFrames_outside p lba m _ (hsize.trans hi)⟩
    · intro b hb
      rw [hbytes]
      exact hframe b hb
    · intro s t hs
      unfold storeStep at hs
      split at hs
      · simp only [ne_eq, not_true_eq_false, if_false, Option.some.injEq] at hs
        subst hs
        refine ⟨rfl, ?_⟩
        intro b hb i hi
        have hend := hframe b hb
        dsimp only
        rw [Nat.add_assoc, copy_inside, Nat.zero_add]
        rw [hbytes]
        rw [Nat.mul_succ] at hend
        omega
      · cases hs

def blockParam (batch : BitVec 32) (h : batch.toNat < 2 ^ 31) : StoreParam :=
  .ofBatch batch 8 12 h

theorem store_pass_fits_of_two :
    2 ^ 12 ∣ 2048 * 2 ∧ FramesFit (blockParam 2 (by decide)) :=
  ⟨by decide, (store_pass_fits_iff (by decide) (by decide)).mpr (by decide)⟩

def fourPages : PopMem :=
  ⟨-1, [], ⟨0, 0, 0, 0, 0⟩, 0x7f0000000000, 0x80000000, 0x4000, 4, 0⟩

/-- A batch of three on blocks of 4096 bytes has one block and a buffer of one page: the length of
the third frame is written outside the buffer, and the frame never reaches the disk although
the pass has counted it. -/
theorem store_pass_loses_frame :
    (blockParam 3 (by decide)).nblocks = 1 ∧
      (storeAlloc (blockParam 3 (by decide)) 0 fourPages true).map (fun out => out.2.toOption.map (·.size)) =
        some (some 0x1000) ∧
      buildFrames (blockParam 3 (by decide)) 0 (fun _ => 0) 3 6140 = 64 ∧
      (storeStep (blockParam 3 (by decide)) ⟨0, 0, fun _ => 0, fun _ => 0xee, [], false⟩ 0).map
        (fun t => (t.num, t.pbuf 6140, t.disk 6140)) = some (3, 64, 0xee) ∧
      ¬FramesFit (blockParam 3 (by decide)) := by
  refine ⟨by decide, rfl, by decide, by decide, ?_⟩
  intro h
  exact absurd (h.blocks 2 (by decide)) (by decide)

end Libpop.Proofs

import Libpop.Proofs.BufferAllocation
import Libpop.Proofs.IpChecksum

/-!
# The frames of nmgen's senders

A sender builds one packet every 2048 bytes of its buffer, and each build clears as many bytes
as `-l` says before it writes 42 bytes of headers. The option is not bounded, so a build can
reach into the frame behind it and past the buffer.
-/

namespace Libpop.Proofs
open Bytes Nmgen

/-- After the build loop over a buffer of `size` bytes at `data`. -/
structure FramesKept (gen : NmgenParam) (cpu : Nat) (rand : Nat → BitVec 31) (data size : Nat)
    (m : Mem) : Prop where
  frames : ∀ i < gen.batch.toNat, ∀ j < gen.len.toNat,
    buildPackets gen cpu rand data m gen.batch.toNat (data + frameSize * i + j) =
      buildPackets gen cpu rand data m (i + 1) (data + frameSize * i + j)
  inside : ∀ k, k < data ∨ data + size ≤ k →
    buildPackets gen cpu rand data m gen.batch.toNat k = m k

/-- For one packet length, batch and CPU: with any addresses, in any context that has the pages
and for all values of `rand()`. -/
def SenderKeepsFrames (pktlen batch : BitVec 32) (cpu : Nat) : Prop :=
  ∀ (gen : NmgenParam) (addr : BitVec 64) (mem mem' : PopMem) (malloc : Bool) (pbuf : Pbuf),
    gen.pktlen = pktlen → gen.batch = batch → senderAlloc gen addr mem malloc = some (mem', .ok pbuf) →
      ∀ rand m, FramesKept gen cpu rand (popBufData pbuf).toNat pbuf.size.toNat m

section Build

variable (gen : NmgenParam) (cpu : Nat) (m : Mem)

/-- Outside the headers a build only clears. -/
lemma buildPacket_eq_set (rand : BitVec 31) {pkt k : Nat} (h : k < pkt ∨ pkt + 42 ≤ k) :
    buildPacket gen cpu rand m pkt k = Bytes.set m pkt gen.len.toNat 0 k := by
  unfold buildPacket writeFields
  rw [foldl_write_outside, write_outside]
  · unfold unsummedPacket writeFields
    apply foldl_write_outside
    intro f hf
    have hle := ipFields_le gen f hf
    omega
  · have hlen : ∀ x, (le16 x).length = 2 := fun _ => rfl
    rw [hlen]
    omega
  · intro f hf
    have hge := udpFields_ge gen cpu rand f hf
    omega

lemma buildPacket_outside (rand : BitVec 31) {pkt k : Nat}
    (h : k < pkt ∨ pkt + max gen.len.toNat 42 ≤ k) : buildPacket gen cpu rand m pkt k = m k := by
  rw [buildPacket_eq_set gen cpu m rand (by omega)]
  exact set_outside (by omega)

lemma buildPacket_cleared (rand : BitVec 31) (pkt : Nat) {j : Nat} (hj : 42 ≤ j)
    (hlen : j < gen.len.toNat) : buildPacket gen cpu rand m pkt (pkt + j) = 0 := by
  rw [buildPacket_eq_set gen cpu m rand (by omega)]
  exact set_inside hlen

lemma buildPacket_dhost (rand : BitVec 31) (pkt : Nat) :
    buildPacket gen cpu rand m pkt pkt = gen.dstmac[0] := by
  have hsplit : ipFields gen = [] ++ (0, gen.dstmac.toList) :: (ipFields gen).drop 1 := rfl
  have hip := buildPacket_ip gen cpu rand m pkt (j := 0) (by decide) (by decide)
  rw [Nat.add_zero] at hip
  rw [hip]
  unfold unsummedPacket writeFields
  rw [hsplit]
  exact foldl_write_inside (k := 0) _ (by simp) (by simp [ipFields, le16, le32])

lemma buildPackets_outside (rand : Nat → BitVec 31) {data n n' k : Nat} (hle : n ≤ n')
    (h : ∀ i, n ≤ i → i < n' → k < data + frameSize * i ∨ data + frameSize * i + max gen.len.toNat 42 ≤ k) :
    buildPackets gen cpu rand data m n' k = buildPackets gen cpu rand data m n k := by
  induction n', hle using Nat.le_induction with
  | base => rfl
  | succ n' hle ih =>
    rw [buildPackets, buildPacket_outside gen cpu _ _ (h n' hle (Nat.lt_succ_self n'))]
    exact ih fun i hi hlt => h i hi (hlt.trans (Nat.lt_succ_self n'))

end Build

/-! ### Options and buffer -/

lemma len_le_iff (gen : NmgenParam) {n : Nat} (hn : n < 2 ^ 31) :
    gen.len.toNat ≤ n ↔ 0 ≤ gen.pktlen.toInt ∧ gen.pktlen.toInt ≤ n := by
  have hint : gen.len.toInt = gen.pktlen.toInt := BitVec.toInt_signExtend_of_le (by decide)
  have hlt := gen.len.isLt
  rw [← hint, BitVec.toInt_eq_toNat_cond]
  split <;> omega

lemma toNat_senderBytes {batch : BitVec 32} (h : batch.toNat ≤ 64) :
    ((2048 * batch).signExtend 64).toNat = frameSize * batch.toNat := by
  have hlit : (2048 : BitVec 32).toNat = 2048 := rfl
  have hint : 2 * ((2048 : BitVec 32).toNat * batch.toNat) < 2 ^ 32 := by
    rw [hlit]
    omega
  rw [Word.toNat_signExtend_mul (by decide) hint, hlit]
  rfl

section Alloc

variable {gen : NmgenParam} (hmax : gen.batch.toNat ≤ 64)
include hmax

lemma senderBytes_le : ((2048 * gen.batch).signExtend 64).toNat ≤ 2 ^ 64 - 4096 := by
  rw [toNat_senderBytes hmax]
  unfold frameSize
  omega

lemma senderAlloc_size {addr : BitVec 64} {mem mem' : PopMem} {malloc : Bool} {pbuf : Pbuf}
    (h : senderAlloc gen addr mem malloc = some (mem', .ok pbuf)) :
    pbuf.size.toNat = (frameSize * gen.batch.toNat + 4095) / 4096 * 4096 := by
  rw [(popBufAllocPut_fresh (senderBytes_le hmax) h).size, toNat_senderBytes hmax]

def senderMem : PopMem :=
  ⟨-1, [], ⟨0, 0, 0, 0, 0⟩, 0x7f0000000000, 0x80000000, 0x20000, 32, 0⟩

lemma senderAlloc_senderMem (addr : BitVec 64) :
    ∃ mem' pbuf, senderAlloc gen addr senderMem true = some (mem', .ok pbuf) := by
  have hpages : (senderMem.numPages - senderMem.allocedPages).toNat = 32 := rfl
  rcases popBufAllocPut_cases (senderBytes_le hmax) addr senderMem true with
    ⟨-, mem', pbuf, -, ha⟩ | ⟨hroom, -⟩
  · exact ⟨mem', pbuf, ha⟩
  · refine absurd ⟨?_, rfl⟩ hroom
    rw [hpages, toNat_senderBytes hmax]
    unfold frameSize
    omega

end Alloc

/-! ### The loop -/

/-- No build leaves its frame, or there is one frame and it has the page. -/
lemma framesKept_of_fits {gen : NmgenParam} (cpu : Nat) (rand : Nat → BitVec 31) {data size : Nat}
    (m : Mem) (hfits : gen.len.toNat ≤ 2048 ∨ gen.batch.toNat = 1 ∧ gen.len.toNat ≤ 4096)
    (hsize : size = (frameSize * gen.batch.toNat + 4095) / 4096 * 4096) :
    FramesKept gen cpu rand data size m := by
  unfold frameSize at hsize
  constructor
  · intro i hi j hj
    apply buildPackets_outside gen cpu m rand hi
    intro i' hle hlt
    unfold frameSize
    omega
  · intro k hk
    apply buildPackets_outside gen cpu m rand (n := 0) (Nat.zero_le _)
    intro i _ hlt
    unfold frameSize
    omega

lemma len_le_of_framesKept {gen : NmgenParam} {cpu : Nat} {rand : Nat → BitVec 31} {data size : Nat}
    (hpos : 1 ≤ gen.batch.toNat) (hdst : gen.dstmac[0] ≠ 0)
    (hsize : size = (frameSize * gen.batch.toNat + 4095) / 4096 * 4096)
    (h : FramesKept gen cpu rand data size fun _ => 1) :
    gen.len.toNat ≤ 2048 ∨ gen.batch.toNat = 1 ∧ gen.len.toNat ≤ 4096 := by
  unfold frameSize at hsize
  obtain ⟨n, hn⟩ : ∃ n, gen.batch.toNat = n + 1 := ⟨gen.batch.toNat - 1, by omega⟩
  -- the last build may clear up to the end of the buffer
  have hlast : gen.len.toNat ≤ 4096 := by
    by_contra hgt
    have hend : data + size = data + frameSize * n + (size - 2048 * n) := by
      unfold frameSize
      omega
    have hkept := h.inside (data + size) (.inr le_rfl)
    rw [hn, buildPackets, hend, buildPacket_cleared gen cpu _ _ _ (by omega) (by omega)] at hkept
    exact absurd hkept (by decide)
  by_contra hne
  have htwo : 1 < gen.batch.toNat := by omega
  -- the first byte of the second frame belongs to two packets
  have hsame : data + frameSize * 0 + 2048 = data + frameSize * 1 + 0 := rfl
  have hfirst := h.frames 0 (by omega) 2048 (by omega)
  have hsecond := h.frames 1 htwo 0 (by omega)
  have hcleared : buildPackets gen cpu rand data (fun _ => 1) 1 (data + frameSize * 0 + 2048) = 0 :=
    buildPacket_cleared gen cpu _ _ _ (by decide) (by omega)
  have hheader : buildPackets gen cpu rand data (fun _ => 1) 2 (data + frameSize * 1 + 0) =
      gen.dstmac[0] :=
    buildPacket_dhost gen cpu _ _ _
  rw [hcleared, hsame, hsecond, hheader] at hfirst
  exact hdst hfirst

/-- Exactly for packets that fit a frame, and for a single packet that fits the page of its
frame. -/
theorem sender_keepsFrames_iff (pktlen batch : BitVec 32) (cpu : Nat) (hpos : 1 ≤ batch.toNat)
    (hmax : batch.toNat ≤ 64) :
    SenderKeepsFrames pktlen batch cpu ↔
      0 ≤ pktlen.toInt ∧ (pktlen.toInt ≤ 2048 ∨ batch = 1 ∧ pktlen.toInt ≤ 4096) := by
  have hone : batch = 1 ↔ batch.toNat = 1 := BitVec.toNat_eq
  rw [hone]
  constructor
  · intro h
    have hle : batch.toInt ≤ 64 := by
      rw [BitVec.toInt_eq_toNat_cond]
      omega
    -- the default options: their destination address tells a header from cleared bytes
    obtain ⟨gen, rfl, rfl, hdst⟩ :
        ∃ gen : NmgenParam, gen.pktlen = pktlen ∧ gen.batch = batch ∧ gen.dstmac[0] ≠ 0 :=
      ⟨defaultParam pktlen batch hle, rfl, rfl, (by decide : (0xff : BitVec 8) ≠ 0)⟩
    obtain ⟨mem', pbuf, ha⟩ := senderAlloc_senderMem hmax 0
    have hkept := h gen 0 senderMem mem' true pbuf rfl rfl ha (fun _ => 0) fun _ => 1
    have hlen := len_le_of_framesKept hpos hdst (senderAlloc_size hmax ha) hkept
    rw [len_le_iff _ (by decide), len_le_iff _ (by decide)] at hlen
    omega
  · rintro ⟨hsign, hlen⟩ gen addr mem mem' malloc pbuf rfl rfl ha rand m
    apply framesKept_of_fits cpu rand m _ (senderAlloc_size hmax ha)
    rw [len_le_iff _ (by decide), len_le_iff _ (by decide)]
    omega

theorem sender_keepsFrames_of_fullFrames :
    SenderKeepsFrames 2048 64 31 ∧ SenderKeepsFrames 4096 1 0 :=
  ⟨(sender_keepsFrames_iff 2048 64 31 (by decide) (by decide)).mpr (by decide),
    (sender_keepsFrames_iff 4096 1 0 (by decide) (by decide)).mpr (by decide)⟩

/-- `nmgen -l 3000 -b 2`: the Ethernet header of the second packet lies in the first one, and the
end of the second is cleared behind the buffer. -/
theorem sender_damages_frames :
    ∃ mem' pbuf, senderAlloc (defaultParam 3000 2 (by decide)) 0x1000 senderMem true =
      some (mem', .ok pbuf) ∧
      (popBufData pbuf).toNat = 0x7f0000000000 ∧ pbuf.size = 4096 ∧
      buildPackets (defaultParam 3000 2 (by decide)) 0 (fun _ => 0) 0x7f0000000000 (fun _ => 1) 1
        (0x7f0000000000 + 2048) = 0 ∧
      buildPackets (defaultParam 3000 2 (by decide)) 0 (fun _ => 0) 0x7f0000000000 (fun _ => 1) 2
        (0x7f0000000000 + 2048) = 0xff ∧
      buildPackets (defaultParam 3000 2 (by decide)) 0 (fun _ => 0) 0x7f0000000000 (fun _ => 1) 2
        (0x7f0000000000 + 4096) = 0 ∧
      ¬SenderKeepsFrames 3000 2 0 := by
  have hfirst :
      buildPackets (defaultParam 3000 2 (by decide)) 0 (fun _ => 0) 0x7f0000000000 (fun _ => 1) 1
      (0x7f0000000000 + 2048) = 0 := by decide +kernel
  have hboth :
      buildPackets (defaultParam 3000 2 (by decide)) 0 (fun _ => 0) 0x7f0000000000 (fun _ => 1) 2
      (0x7f0000000000 + 2048) = 0xff := by decide +kernel
  have ha : senderAlloc (defaultParam 3000 2 (by decide)) 0x1000 senderMem true =
      some ({ senderMem with allocedPages := 1 },
        .ok ⟨⟨0x7f0000000000, 0x80000000, 4096, 0, 4096⟩, 0x1000⟩) := rfl
  refine ⟨_, _, ha, rfl, rfl, hfirst, hboth, by decide +kernel, ?_⟩
  intro h
  have hkept :=
    (h _ _ _ _ _ _ rfl rfl ha (fun _ => 0) fun _ => 1).frames 0 (by decide) 2048 (by decide)
  exact absurd (hfirst.symm.trans (hkept.symm.trans hboth)) (by decide)

end Libpop.Proofs

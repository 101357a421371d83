import Mathlib.Algebra.Order.BigOperators.Group.List
import Mathlib.Algebra.Order.Monoid.Canonical.Basic
import Libpop.Proofs.Checksum

/-!
# The checksum of nmgen's IP headers

`checksum` adds the words of a header with end-around carry and `wrapsum` stores the complement
in network order. Whatever the addresses are, the ones' complement sum of the finished header
is all ones.
-/

namespace Libpop.Proofs
open Bytes Nmgen

/-! ### The sum -/

lemma toNat_checksum_ip (m : Mem) (data : Nat) :
    (checksum m data (BitVec.ofNat 16 ipHdrLen) 0).toNat =
      OnesComplement.sum 65535 0 (beWords m data 10) :=
  toNat_checksum m data (BitVec.ofNat 16 ipHdrLen) (Nat.zero_le 65535)

lemma toNat_complement {sum : BitVec 16} :
    ((~~~(sum.setWidth 32) &&& 0xFFFF : BitVec 32).setWidth 16).toNat = 65535 - sum.toNat := by
  have hlt := sum.isLt
  have hmask := Word.toNat_and_low (~~~(sum.setWidth 32)) 16 (by decide)
  have hwide : (sum.setWidth 32).toNat = sum.toNat := BitVec.toNat_setWidth_of_le (by decide)
  rw [BitVec.toNat_not, hwide] at hmask
  rw [BitVec.toNat_setWidth]
  change (~~~(sum.setWidth 32) &&& BitVec.ofNat 32 (2 ^ 16 - 1)).toNat % 2 ^ 16 = _
  rw [hmask]
  omega

/-! ### The header in memory -/

lemma getBe16_writeFields {fields before after : List (Nat × List (BitVec 8))} {offset : Nat}
    {x : BitVec 16} (m : Mem) (pkt : Nat) (hsplit : fields = before ++ (offset, be16 x) :: after)
    (hafter : ∀ f ∈ after, f.1 + f.2.length ≤ offset ∨ offset + 2 ≤ f.1) :
    getBe16 (writeFields m pkt fields) (pkt + offset) = x.toNat := by
  unfold writeFields
  rw [hsplit]
  have hout : ∀ k < 2, ∀ f ∈ after, offset + k < f.1 ∨ f.1 + f.2.length ≤ offset + k := by
    intro k hk f hf
    have h := hafter f hf
    omega
  apply getBe16_of_be16
  · exact foldl_write_inside (k := 0) m (by simp [be16]) (hout 0 (by decide))
  · exact foldl_write_inside (k := 1) m (by simp [be16]) (hout 1 (by decide))

lemma udpFields_ge (gen : NmgenParam) (cpu : Nat) (rand : BitVec 31) :
    ∀ f ∈ udpFields gen cpu rand, 34 ≤ f.1 ∧ f.1 + f.2.length ≤ 42 := by
  simp [udpFields, le16]

lemma ipFields_le (gen : NmgenParam) : ∀ f ∈ ipFields gen, f.1 + f.2.length ≤ 34 := by
  simp [ipFields, le16, le32]

section Header

variable (gen : NmgenParam) (cpu : Nat) (rand : BitVec 31) (m : Mem) (pkt : Nat)

/-- Behind the checksum only the UDP header is written, and before it only the checksum. -/
lemma buildPacket_ip {j : Nat} (hj : j < 34) (hsum : j < 24 ∨ 26 ≤ j) :
    buildPacket gen cpu rand m pkt (pkt + j) = unsummedPacket gen m pkt (pkt + j) := by
  unfold buildPacket writeFields
  rw [foldl_write_outside, write_outside]
  · have hlen : ∀ x, (le16 x).length = 2 := fun _ => rfl
    rw [hlen]
    omega
  · intro f hf
    have hge := udpFields_ge gen cpu rand f hf
    omega

lemma getBe16_buildPacket_ip {j : Nat} (hj : j + 2 ≤ 34) (hsum : j + 2 ≤ 24 ∨ 26 ≤ j) :
    getBe16 (buildPacket gen cpu rand m pkt) (pkt + j) =
      getBe16 (unsummedPacket gen m pkt) (pkt + j) := by
  unfold getBe16
  rw [buildPacket_ip gen cpu rand m pkt (by omega) (by omega), Nat.add_assoc,
    buildPacket_ip gen cpu rand m pkt (by omega) (by omega)]

/-- The checksum field holds the complement of the sum over the header without it. -/
lemma getBe16_buildPacket_sum :
    getBe16 (buildPacket gen cpu rand m pkt) (pkt + 24) =
      65535 - OnesComplement.sum 65535 0 (beWords (unsummedPacket gen m pkt) (pkt + 14) 10) := by
  have hsum := toNat_checksum_ip (unsummedPacket gen m pkt) (pkt + etherHdrLen)
  have hat : ∀ j < 2, buildPacket gen cpu rand m pkt (pkt + 24 + j) =
      write (unsummedPacket gen m pkt) (pkt + 24)
        (le16 (wrapsum ((checksum (unsummedPacket gen m pkt)
        (pkt + etherHdrLen) (BitVec.ofNat 16 ipHdrLen) 0).setWidth 32))) (pkt + 24 + j) := by
    intro j hj
    unfold buildPacket writeFields
    apply foldl_write_outside
    intro f hf
    have hge := udpFields_ge gen cpu rand f hf
    omega
  unfold wrapsum at hat
  rw [le16_swap16] at hat
  rw [getBe16_of_be16 ((hat 0 (by decide)).trans (write_inside (k := 0) (by simp [be16])))
    ((hat 1 (by decide)).trans (write_inside (k := 1) (by simp [be16]))), toNat_complement, hsum]
  rfl

lemma getBe16_unsummed_sum : getBe16 (unsummedPacket gen m pkt) (pkt + 24) = 0 := by
  have hzero : le16 0 = be16 0 := rfl
  have hsplit : ipFields gen = (ipFields gen).take 10 ++ (24, be16 0) ::
      [(26, le32 gen.srcip), (30, le32 gen.dstip)] := by
    rw [← hzero]
    rfl
  exact getBe16_writeFields _ pkt hsplit (by simp [le32])

lemma getBe16_unsummed_version : 0 < getBe16 (unsummedPacket gen m pkt) (pkt + 14) := by
  have hsplit : ipFields gen = (ipFields gen).take 3 ++ (14, [0x45]) :: (ipFields gen).drop 4 := rfl
  have hbyte : unsummedPacket gen m pkt (pkt + 14) = 0x45 := by
    unfold unsummedPacket writeFields
    rw [hsplit]
    exact foldl_write_inside (k := 0) _ (by simp) (by simp [ipFields, le16, le32])
  unfold getBe16
  rw [hbyte]
  exact Nat.add_pos_left (by decide) _

lemma sum_beWords_pos : 0 < (beWords (unsummedPacket gen m pkt) (pkt + 14) 10).sum := by
  have hpos := getBe16_unsummed_version gen m pkt
  have hmem : getBe16 (unsummedPacket gen m pkt) (pkt + 14) ∈
      beWords (unsummedPacket gen m pkt) (pkt + 14) 10 :=
    List.mem_map.mpr ⟨0, by decide, rfl⟩
  exact hpos.trans_le (List.le_sum_of_mem hmem)

/-- The words of the finished header are those it was summed over and the checksum. -/
lemma sum_beWords_buildPacket :
    (beWords (buildPacket gen cpu rand m pkt) (pkt + 14) 10).sum =
      (beWords (unsummedPacket gen m pkt) (pkt + 14) 10).sum +
        getBe16 (buildPacket gen cpu rand m pkt) (pkt + 24) := by
  have hsame : ∀ k < 10, k ≠ 5 → getBe16 (buildPacket gen cpu rand m pkt) (pkt + 14 + 2 * k) =
      getBe16 (unsummedPacket gen m pkt) (pkt + 14 + 2 * k) := by
    intro k hk hne
    rw [Nat.add_assoc]
    exact getBe16_buildPacket_ip gen cpu rand m pkt (by omega) (by omega)
  have hempty : getBe16 (unsummedPacket gen m pkt) (pkt + 14 + 2 * 5) = 0 :=
    getBe16_unsummed_sum gen m pkt
  have hfield : pkt + 24 = pkt + 14 + 2 * 5 := rfl
  have hrange : List.range 10 = [0, 1, 2, 3, 4, 5, 6, 7, 8, 9] := rfl
  unfold beWords
  rw [hrange, hfield]
  simp only [List.map_cons, List.map_nil, List.sum_cons, List.sum_nil]
  rw [hsame 0 (by decide) (by decide), hsame 1 (by decide) (by decide),
    hsame 2 (by decide) (by decide),
    hsame 3 (by decide) (by decide), hsame 4 (by decide) (by decide),
    hsame 6 (by decide) (by decide), hsame 7 (by decide) (by decide),
    hsame 8 (by decide) (by decide), hsame 9 (by decide) (by decide), hempty]
  omega

theorem ip_header_sum :
    OnesComplement.sum 65535 0 (beWords (buildPacket gen cpu rand m pkt) (pkt + 14) 10) =
      65535 := by
  have hle :=
    OnesComplement.sum_le (Nat.zero_le 65535) (beWords_le (unsummedPacket gen m pkt) (pkt + 14) 10)
  have hmod :=
    OnesComplement.sum_modEq (m := 65535) 0 (beWords (unsummedPacket gen m pkt) (pkt + 14) 10)
  have hpos := sum_beWords_pos gen m pkt
  have htotal := sum_beWords_buildPacket gen cpu rand m pkt
  rw [getBe16_buildPacket_sum] at htotal
  apply OnesComplement.sum_eq_allOnes (Nat.zero_le 65535) (beWords_le _ _ _)
  · omega
  · -- the sum of the other words and the complement of its residue
    unfold Nat.ModEq at hmod
    omega

lemma getBe16_ip_len :
    getBe16 (buildPacket gen cpu rand m pkt) (pkt + 16) =
      ((gen.len - BitVec.ofNat 64 etherHdrLen).setWidth 16).toNat := by
  have hsplit : ipFields gen = (ipFields gen).take 6 ++
      (16, be16 ((gen.len - BitVec.ofNat 64 etherHdrLen).setWidth 16)) :: (ipFields gen).drop 7 := by
    rw [← le16_swap16]
    rfl
  rw [getBe16_buildPacket_ip gen cpu rand m pkt (by decide) (by decide)]
  exact getBe16_writeFields _ pkt hsplit (by simp [ipFields, le16, le32])

lemma getBe16_uh_ulen :
    getBe16 (buildPacket gen cpu rand m pkt) (pkt + 38) =
      ((gen.len - BitVec.ofNat 64 etherHdrLen - BitVec.ofNat 64 ipHdrLen).setWidth 16).toNat := by
  have hsplit : udpFields gen cpu rand = [] ++
      (38, be16 ((gen.len - BitVec.ofNat 64 etherHdrLen - BitVec.ofNat 64 ipHdrLen).setWidth 16)) ::
        (udpFields gen cpu rand).drop 1 := by
    rw [← le16_swap16]
    rfl
  exact getBe16_writeFields _ pkt hsplit (by simp [udpFields, le16])

end Header

lemma toNat_len {gen : NmgenParam} (h : gen.pktlen.toNat < 2 ^ 31) :
    gen.len.toNat = gen.pktlen.toNat := by
  unfold NmgenParam.len
  exact Word.toNat_signExtend_of_lt (by decide) (by omega)

/-- For every pair of addresses, every CPU and every packet length from the three headers on to a
frame: the header of a packet passes the receiver's check, and its lengths are those of the
packet behind the Ethernet and the IP header. -/
theorem ip_header_verifies (gen : NmgenParam) (cpu : Nat) (rand : BitVec 31) (m : Mem) (pkt : Nat)
    (hmin : 42 ≤ gen.pktlen.toNat) (hmax : gen.pktlen.toNat ≤ 2048) :
    OnesComplement.sum 0xFFFF 0 (beWords (buildPacket gen cpu rand m pkt) (pkt + 14) 10) = 0xFFFF ∧
      getBe16 (buildPacket gen cpu rand m pkt) (pkt + 16) = gen.pktlen.toNat - 14 ∧
      getBe16 (buildPacket gen cpu rand m pkt) (pkt + 38) = gen.pktlen.toNat - 34 := by
  have hlen : gen.len.toNat = gen.pktlen.toNat := toNat_len (by omega)
  have hether : (BitVec.ofNat 64 etherHdrLen).toNat = 14 := rfl
  have hip : (BitVec.ofNat 64 ipHdrLen).toNat = 20 := rfl
  refine ⟨ip_header_sum gen cpu rand m pkt, ?_, ?_⟩
  · rw [getBe16_ip_len, BitVec.toNat_setWidth, BitVec.toNat_sub, hlen, hether]
    omega
  · rw [getBe16_uh_ulen, BitVec.toNat_setWidth, BitVec.toNat_sub, BitVec.toNat_sub, hlen, hether,
      hip]
    omega

def defaultParam (pktlen batch : BitVec 32) (h : batch.toInt ≤ 64) : NmgenParam :=
  ⟨pktlen, batch, 0x020a000a, 0x010a000a, ⟨#[0, 0, 0, 0, 0, 0], rfl⟩,
    ⟨#[0xff, 0xff, 0xff, 0xff, 0xff, 0xff], rfl⟩, h⟩

theorem ip_header_verifies_of_sixty :
    getBe16 (buildPacket (defaultParam 60 1 (by decide)) 0 0 (fun _ => 0) 0) 24 = 0x82ad ∧
      OnesComplement.sum 0xFFFF 0
        (beWords (buildPacket (defaultParam 60 1 (by decide)) 0 0 (fun _ => 0) 0) (0 + 14) 10) =
          0xFFFF :=
  ⟨by decide +kernel, (ip_header_verifies _ 0 0 _ 0 (by decide) (by decide)).1⟩

end Libpop.Proofs
